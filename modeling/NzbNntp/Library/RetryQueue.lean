import Mathlib.Algebra.BigOperators.Group.List.Basic
import Mathlib.Algebra.GroupWithZero.Nat
import Mathlib.Data.List.Nodup
import Mathlib.Data.List.Perm.Basic

/-!
A queue of jobs with retries. A turn takes the job at the head, and settles it
or puts what is left of it at the back; it may also end the run with an error.
Each turn works on a shared state and puts something out.

Jobs carry a tag, which no turn reads. When a job that is put back is smaller
than it was, the queue runs empty; and what the turns of one job have put out,
taken from the whole run, is a course of that job alone, however the jobs were
interleaved.
-/

namespace RetryQueue

variable {σ κ ω ε ι : Type*}

/-- With the shared state and a job: the next state, the output, and the job to put
back, or none when it is settled. -/
abbrev Turn (σ κ ω ε : Type*) := σ → κ → Except ε (σ × ω × Option κ)

structure Report (σ ω ε ι : Type*) where
  result : Except ε Unit
  state : σ
  log : List (ι × ω)

/-- A run, turn by turn; none when the turns are used up with jobs left. -/
def run : List (Turn σ κ ω ε) → σ → List (ι × κ) → Option (Report σ ω ε ι)
  | _, s, [] => some ⟨.ok (), s, []⟩
  | [], _, _ :: _ => none
  | turn :: turns, s, (tag, job) :: queue =>
      match turn s job with
      | .error e => some ⟨.error e, s, []⟩
      | .ok (s', output, back) =>
          (run turns s' (queue ++ (back.map (tag, ·)).toList)).map fun report =>
            { report with log := (tag, output) :: report.log }

@[simp] theorem run_nil (turns : List (Turn σ κ ω ε)) (s : σ) :
    run turns s ([] : List (ι × κ)) = some ⟨.ok (), s, []⟩ := by
  cases turns <;> rfl

def outputs [DecidableEq ι] (tag : ι) (log : List (ι × ω)) : List ω :=
  (log.filter (·.1 = tag)).map Prod.snd

/-- The outputs of the turns of a job until it is settled, when each turn follows `R`. -/
inductive Course (R : κ → ω → Option κ → Prop) : κ → List ω → Prop where
  | settled {job output} (h : R job output none) : Course R job [output]
  | retried {job output back rest} (h : R job output (some back)) (course : Course R back rest) :
      Course R job (output :: rest)

/-- A turn that does not end the run, keeps `J`, and follows `R`. -/
def Serves (J : σ → Prop) (R : κ → ω → Option κ → Prop) (turn : Turn σ κ ω ε) : Prop :=
  ∀ s job, J s → ∃ s' output back, turn s job = .ok (s', output, back) ∧ J s' ∧ R job output back

section Rules

variable {J : σ → Prop} {R : κ → ω → Option κ → Prop} {size : κ → ℕ}
  {turns : List (Turn σ κ ω ε)} {s : σ} {queue : List (ι × κ)} {report : Report σ ω ε ι}

def effort (size : κ → ℕ) (queue : List (ι × κ)) : ℕ :=
  (queue.map fun job => size job.2 + 1).sum

@[simp] theorem effort_cons (job : ι × κ) :
    effort size (job :: queue) = size job.2 + 1 + effort size queue := by
  simp [effort]

@[simp] theorem effort_append (back : List (ι × κ)) :
    effort size (queue ++ back) = effort size queue + effort size back := by
  simp [effort]

theorem effort_le {bound : ℕ} (h : ∀ job ∈ queue, size job.2 ≤ bound) :
    effort size queue ≤ queue.length * (bound + 1) := by
  induction queue with
  | nil => simp [effort]
  | cons job queue ih =>
      have hjob : size job.2 ≤ bound := h job (by simp)
      have hrest := ih fun job hmem => h job (by simp [hmem])
      calc
        effort size (job :: queue) = size job.2 + 1 + effort size queue := effort_cons job
        _ ≤ bound + 1 + queue.length * (bound + 1) := by omega
        _ = (job :: queue).length * (bound + 1) := by
          rw [List.length_cons, Nat.add_one_mul, Nat.add_comm]

/-- **Termination.** Enough turns empty the queue. -/
theorem run_ends (hserves : ∀ turn ∈ turns, Serves J R turn)
    (hshrinks : ∀ job output back, R job output (some back) → size back < size job)
    (hs : J s) (henough : effort size queue ≤ turns.length) :
    ∃ report, run turns s queue = some report ∧ report.result = .ok () := by
  induction turns generalizing s queue with
  | nil =>
      cases queue with
      | nil => exact ⟨_, run_nil _ _, rfl⟩
      | cons job queue => simp [effort] at henough
  | cons turn turns ih =>
      cases queue with
      | nil => exact ⟨_, run_nil _ _, rfl⟩
      | cons job queue =>
          obtain ⟨s', output, back, hturn, hs', hR⟩ := hserves turn (by simp) s job.2 hs
          have hback : effort size (back.map (job.1, ·)).toList ≤ size job.2 := by
            cases back with
            | none => exact Nat.zero_le _
            | some back => simpa [effort] using Nat.succ_le_of_lt (hshrinks _ _ _ hR)
          have hless : effort size (queue ++ (back.map (job.1, ·)).toList) ≤ turns.length := by
            rw [effort_cons, List.length_cons] at henough
            rw [effort_append]
            omega
          obtain ⟨report, hrun, hok⟩ := ih (fun t ht => hserves t (by simp [ht])) hs' hless
          exact ⟨{ report with log := (job.1, output) :: report.log },
            by simp [run, hturn, hrun], hok⟩

/-- A run that empties the queue, taken apart at its first turn. -/
theorem run_cons {turn : Turn σ κ ω ε} {tag : ι} {job : κ} (hserves : Serves J R turn) (hs : J s)
    (hrun : run (turn :: turns) s ((tag, job) :: queue) = some report) :
    ∃ s' output back rest, J s' ∧ R job output back ∧
      run turns s' (queue ++ (back.map (tag, ·)).toList) = some rest ∧
      report = { rest with log := (tag, output) :: rest.log } := by
  obtain ⟨s', output, back, hturn, hs', hR⟩ := hserves s job hs
  simp only [run, hturn, Option.map_eq_some_iff] at hrun
  obtain ⟨rest, hrest, rfl⟩ := hrun
  exact ⟨s', output, back, rest, hs', hR, hrest, rfl⟩

/-- The log names jobs of the queue only. -/
theorem run_log_tags (hserves : ∀ turn ∈ turns, Serves J R turn) (hs : J s)
    (hrun : run turns s queue = some report) :
    ∀ entry ∈ report.log, entry.1 ∈ queue.map Prod.fst := by
  induction turns generalizing s queue report with
  | nil =>
      cases queue with
      | nil => cases hrun; simp
      | cons job queue => cases hrun
  | cons turn turns ih =>
      cases queue with
      | nil => cases hrun; simp
      | cons job queue =>
          obtain ⟨s', output, back, rest, hs', -, hrest, rfl⟩ :=
            run_cons (hserves turn (by simp)) hs hrun
          intro entry hentry
          rcases List.mem_cons.mp hentry with rfl | hentry
          · simp
          · have htag := ih (fun t ht => hserves t (by simp [ht])) hs' hrest entry hentry
            cases back with
            | none => simpa using Or.inr (by simpa using htag)
            | some back =>
                have : (∃ x, (entry.1, x) ∈ queue) ∨ entry.1 = job.1 := by simpa using htag
                simpa [or_comm] using this

/-- **One job at a time.** In a run that empties the queue, the outputs of each job
are a course of it. -/
theorem run_course [DecidableEq ι] (hserves : ∀ turn ∈ turns, Serves J R turn) (hs : J s)
    (hnodup : (queue.map Prod.fst).Nodup) (hrun : run turns s queue = some report) :
    ∀ job ∈ queue, Course R job.2 (outputs job.1 report.log) := by
  induction turns generalizing s queue report with
  | nil =>
      cases queue with
      | nil => simp
      | cons job queue => cases hrun
  | cons turn turns ih =>
      cases queue with
      | nil => simp
      | cons head queue =>
          obtain ⟨tag, first⟩ := head
          have hserves' : ∀ t ∈ turns, Serves J R t := fun t ht => hserves t (by simp [ht])
          obtain ⟨s', output, back, rest, hs', hR, hrest, rfl⟩ :=
            run_cons (hserves turn (by simp)) hs hrun
          obtain ⟨hhead, htail⟩ : tag ∉ queue.map Prod.fst ∧ (queue.map Prod.fst).Nodup := by
            simpa using hnodup
          -- the queue of the next turn has the same tags, less that of a settled job
          have hnext : ((queue ++ (back.map (tag, ·)).toList).map Prod.fst).Nodup := by
            cases back with
            | none => simpa using htail
            | some back =>
                rw [List.map_append, List.nodup_append_comm]
                exact List.nodup_cons.mpr ⟨hhead, htail⟩
          have hcourse := ih hserves' hs' hnext hrest
          intro job hjob
          rcases List.mem_cons.mp hjob with rfl | hjob
          · have hlog : outputs tag ((tag, output) :: rest.log) = output :: outputs tag rest.log := by
              simp [outputs]
            rw [hlog]
            cases back with
            | none =>
                have hgone : outputs tag rest.log = [] := by
                  have htags := run_log_tags hserves' hs' hrest
                  simp only [outputs, List.map_eq_nil_iff, List.filter_eq_nil_iff]
                  intro entry hentry heq
                  simp only [decide_eq_true_eq] at heq
                  exact hhead (by simpa [heq] using htags entry hentry)
                rw [hgone]
                exact .settled hR
            | some back => exact .retried hR (hcourse (tag, back) (by simp))
          · have hother : job.1 ≠ tag := fun h => hhead (h ▸ List.mem_map_of_mem hjob)
            have hlog : outputs job.1 ((tag, output) :: rest.log) = outputs job.1 rest.log := by
              simp [outputs, hother.symm]
            rw [hlog]
            exact hcourse job (by simp [hjob])

/-- Turns that do the same with jobs of one kind do the same with a queue of them. -/
theorem run_congr {α : Type*} {serve serve' : α → Turn σ κ ω ε} {I : κ → Prop} {inputs : List α}
    (hsame : ∀ input ∈ inputs, ∀ s job, I job → serve input s job = serve' input s job)
    (hkeeps : ∀ input ∈ inputs, ∀ s job s' output back, I job →
      serve input s job = .ok (s', output, some back) → I back)
    (hqueue : ∀ job ∈ queue, I job.2) :
    run (inputs.map serve) s queue = run (inputs.map serve') s queue := by
  induction inputs generalizing s queue with
  | nil => rfl
  | cons input inputs ih =>
      cases queue with
      | nil => rfl
      | cons job queue =>
          have hjob : I job.2 := hqueue job (by simp)
          have hfirst := hsame input (by simp) s job.2 hjob
          rw [List.map_cons, List.map_cons, run, run, ← hfirst]
          cases hturn : serve input s job.2 with
          | error e => rfl
          | ok next =>
              obtain ⟨s', output, back⟩ := next
              have hnext : ∀ j ∈ queue ++ (back.map (job.1, ·)).toList, I j.2 := by
                intro j hj
                rcases List.mem_append.mp hj with hj | hj
                · exact hqueue j (by simp [hj])
                · cases back with
                  | none => cases hj
                  | some back =>
                      obtain rfl : j = (job.1, back) := by simpa using hj
                      exact hkeeps input (by simp) s job.2 s' output back hjob hturn
              have hrest := ih (s := s') (fun i hi => hsame i (by simp [hi]))
                (fun i hi => hkeeps i (by simp [hi])) hnext
              dsimp only
              rw [hrest]

end Rules

/-- A log is, up to the order, what its jobs have put out, job by job. -/
theorem perm_flatMap_outputs [DecidableEq ι] (tags : List ι) (log : List (ι × ω))
    (hnodup : tags.Nodup) (hlog : ∀ entry ∈ log, entry.1 ∈ tags) :
    (log.map Prod.snd).Perm (tags.flatMap fun tag => outputs tag log) := by
  induction tags generalizing log with
  | nil =>
      cases log with
      | nil => simp
      | cons entry log => exact absurd (hlog entry List.mem_cons_self) List.not_mem_nil
  | cons tag tags ih =>
      obtain ⟨hhead, htail⟩ := List.nodup_cons.mp hnodup
      let others := log.filter fun entry => ¬entry.1 = tag
      have hothers : ∀ entry ∈ others, entry.1 ∈ tags := by
        intro entry hentry
        obtain ⟨hentry, hne⟩ : entry ∈ log ∧ ¬entry.1 = tag := by simpa [others] using hentry
        exact (List.mem_cons.mp (hlog entry hentry)).resolve_left hne
      have hsame : ∀ other ∈ tags, outputs other others = outputs other log := by
        intro other hother
        have hne : other ≠ tag := fun h => hhead (h ▸ hother)
        simp only [outputs, others, List.filter_filter]
        congr 1
        refine List.filter_congr fun entry _ => ?_
        by_cases h : entry.1 = other <;> simp [h, hne]
      have hsplit : (outputs tag log ++ others.map Prod.snd).Perm (log.map Prod.snd) := by
        simpa [outputs, others] using
          (List.filter_append_perm (fun entry : ι × ω => entry.1 = tag) log).map Prod.snd
      rw [List.flatMap_cons, ← List.flatMap_congr hsame]
      exact hsplit.symm.trans ((ih others htail hothers).append_left _)

/-! ### Rounds -/

section Rounds

variable {α : Type*}

structure Round (α σ κ ω : Type*) where
  input : α
  before : σ
  job : κ
  output : ω
  after : σ

def Round.Of (serve : α → Turn σ κ ω ε) (r : Round α σ κ ω) : Prop :=
  ∃ back, serve r.input r.before r.job = .ok (r.after, r.output, back)

/-- The rounds of a run, whether it empties the queue, ends with an error or is still
going on when the inputs are used up. -/
def rounds (serve : α → Turn σ κ ω ε) : List α → σ → List (ι × κ) → List (Round α σ κ ω)
  | _, _, [] => []
  | [], _, _ :: _ => []
  | input :: inputs, s, (tag, job) :: queue =>
      match serve input s job with
      | .error _ => []
      | .ok (s', output, back) =>
          ⟨input, s, job, output, s'⟩ ::
            rounds serve inputs s' (queue ++ (back.map (tag, ·)).toList)

variable {serve : α → Turn σ κ ω ε} {inputs : List α} {s : σ} {queue : List (ι × κ)}

/-- What a report logs is what the rounds have put out, and its state is the one the
last round has left. -/
theorem run_eq_rounds {report : Report σ ω ε ι}
    (h : run (inputs.map serve) s queue = some report) :
    report.log.map Prod.snd = (rounds serve inputs s queue).map (·.output) ∧
      report.state = ((rounds serve inputs s queue).getLast?.map (·.after)).getD s := by
  induction inputs generalizing s queue report with
  | nil =>
      cases queue with
      | nil => cases h; exact ⟨rfl, rfl⟩
      | cons job queue => cases h
  | cons input inputs ih =>
      cases queue with
      | nil => cases h; exact ⟨rfl, rfl⟩
      | cons job queue =>
          simp only [List.map_cons, run] at h
          rw [rounds]
          cases hserve : serve input s job.2 with
          | error e =>
              rw [hserve] at h
              cases h
              exact ⟨rfl, rfl⟩
          | ok next =>
              rw [hserve] at h
              obtain ⟨rest, hrest, rfl⟩ := Option.map_eq_some_iff.mp h
              obtain ⟨hlog, hstate⟩ := ih hrest
              refine ⟨congrArg (next.2.1 :: ·) hlog, hstate.trans ?_⟩
              dsimp only
              rw [List.getLast?_cons]
              generalize (rounds serve inputs _ _).getLast? = last
              cases last <;> rfl

/-- What each round keeps holds before and after every round. -/
theorem rounds_keep {J : σ → Prop}
    (hkeeps : ∀ r : Round α σ κ ω, r.input ∈ inputs → r.Of serve → J r.before → J r.after)
    (hs : J s) :
    ∀ r ∈ rounds serve inputs s queue, r.input ∈ inputs ∧ r.Of serve ∧ J r.before ∧ J r.after := by
  induction inputs generalizing s queue with
  | nil => cases queue <;> simp [rounds]
  | cons input inputs ih =>
      cases queue with
      | nil => simp [rounds]
      | cons job queue =>
          rw [rounds]
          split
          · simp
          · rename_i s' output back hserve
            have hfirst : J s' :=
              hkeeps ⟨input, s, job.2, output, s'⟩ (List.mem_cons_self) ⟨back, hserve⟩ hs
            intro r hr
            rcases List.mem_cons.mp hr with rfl | hr
            · exact ⟨List.mem_cons_self, ⟨back, hserve⟩, hs, hfirst⟩
            · obtain ⟨hinput, hrest⟩ := ih
                (fun r hinput => hkeeps r (List.mem_cons_of_mem _ hinput)) hfirst r hr
              exact ⟨List.mem_cons_of_mem _ hinput, hrest⟩

def settled (s : σ) (rounds : List (Round α σ κ ω)) : σ :=
  (rounds.getLast?.map (·.after)).getD s

@[simp] theorem settled_cons (s : σ) (r : Round α σ κ ω) (later : List (Round α σ κ ω)) :
    settled s (r :: later) = settled r.after later := by
  rw [settled, settled, List.getLast?_cons]
  cases later.getLast? <;> rfl

/-- **A running total.** What each round adds to, the run has added up. -/
theorem rounds_total {M : Type*} [AddMonoid M] {P : M → σ → Prop} (f : Round α σ κ ω → M) {m : M}
    (hround : ∀ (r : Round α σ κ ω) n, r.input ∈ inputs → r.Of serve → P n r.before →
      P (n + f r) r.after)
    (hs : P m s) :
    P (m + ((rounds serve inputs s queue).map f).sum) (settled s (rounds serve inputs s queue)) := by
  induction inputs generalizing s queue m with
  | nil => cases queue <;> simpa [rounds, settled] using hs
  | cons input inputs ih =>
      cases queue with
      | nil => simpa [rounds, settled] using hs
      | cons job queue =>
          rw [rounds]
          split
          · simpa [settled] using hs
          · rename_i s' output back hserve
            have hfirst : P (m + f ⟨input, s, job.2, output, s'⟩) s' :=
              hround ⟨input, s, job.2, output, s'⟩ m List.mem_cons_self ⟨back, hserve⟩ hs
            have hround' := fun r n hinput => hround r n (List.mem_cons_of_mem _ hinput)
            have hrest := @ih s' (queue ++ (back.map (job.1, ·)).toList) _ hround' hfirst
            rw [List.map_cons, List.sum_cons, ← add_assoc, settled_cons]
            exact hrest

/-- **What one round sets up for the later ones.** If a round leaves `Q`, and no round
breaks it, then every later round starts from it. -/
theorem rounds_pairwise {Q : Round α σ κ ω → σ → Prop}
    (hsets : ∀ r : Round α σ κ ω, r.input ∈ inputs → r.Of serve → Q r r.after)
    (hkeeps : ∀ r r' : Round α σ κ ω, r'.input ∈ inputs → r'.Of serve → Q r r'.before →
      Q r r'.after) :
    (rounds serve inputs s queue).Pairwise fun r r' =>
      r'.input ∈ inputs ∧ r'.Of serve ∧ Q r r'.before ∧ Q r r'.after := by
  induction inputs generalizing s queue with
  | nil => cases queue <;> simp [rounds]
  | cons input inputs ih =>
      cases queue with
      | nil => simp [rounds]
      | cons job queue =>
          have hmem : ∀ {i}, i ∈ inputs → i ∈ input :: inputs := List.mem_cons_of_mem _
          rw [rounds]
          split
          · exact .nil
          · rename_i s' output back hserve
            refine .cons (fun r' hr' => ?_) ?_
            · have hfirst := hsets ⟨input, s, job.2, output, s'⟩ List.mem_cons_self ⟨back, hserve⟩
              obtain ⟨hinput, hrest⟩ :=
                rounds_keep (fun r hr => hkeeps _ r (hmem hr)) hfirst r' hr'
              exact ⟨hmem hinput, hrest⟩
            · refine (ih (fun r hr => hsets r (hmem hr)) fun r r' hr' =>
                hkeeps r r' (hmem hr')).imp ?_
              intro r r' h
              exact ⟨hmem h.1, h.2⟩

end Rounds

end RetryQueue
