import Transcript.Proofs.Pipeline.Aftermath
import Transcript.Proofs.Pipeline.Turns

/-!
# Running a job to its end

`Pipeline.carryOut` runs a job while the caller waits for it. If nothing else is over before, and no
worker has another job to take, each turn of the clock takes the job past a call, so that it is over
after three of them at most. What it leaves behind is its aftermath in any case
(`Pipeline.exists_aftermath`).
-/

namespace Transcript.Pipeline

variable {σ : Type}

/-! ## Whose turn it is -/

/-- The earliest of some runs is one of them. -/
theorem foldl_earlier_mem (r : Run) (rs : List Run) : rs.foldl earlier r ∈ r :: rs := by
  induction rs generalizing r with
  | nil => exact List.mem_singleton.2 rfl
  | cons r' rs ih =>
      rcases List.mem_cons.1 (ih (earlier r r')) with hfirst | hlater
      · rw [List.foldl_cons, hfirst]
        unfold earlier
        split
        · exact .tail _ (.head _)
        · exact .head _
      · exact .tail _ (.tail _ hlater)

/-- The run whose call is over next is one of those that wait. -/
theorem exists_next_run {p : Pipeline σ} (hruns : p.runs ≠ []) :
    ∃ run ∈ p.runs, p.nextRun? = some run := by
  obtain ⟨r, rs, hp⟩ := List.exists_cons_of_ne_nil hruns
  unfold nextRun?
  rw [hp]
  exact ⟨_, foldl_earlier_mem r rs, rfl⟩

/-- If no worker has a job to take, none has one when as many workers or more are busy. -/
theorem next_job_eq_none {p p' : Pipeline σ} {f : Pool → Pool} (hidle : p.nextJob? = none)
    (hpool : p'.pool = p.pool.map f)
    (hf : ∀ pool, (f pool).queue = pool.queue ∧ (f pool).workers = pool.workers ∧
      (f pool).alive = pool.alive) (hbusy : p.busy ≤ p'.busy) : p'.nextJob? = none := by
  unfold nextJob? hasIdleWorker queue at hidle ⊢
  rw [hpool]
  cases hold : p.pool with
  | none => rfl
  | some pool =>
      obtain ⟨hqueue, hworkers, halive⟩ := hf pool
      simp only [hold, Option.map_some, Option.getD_some, hqueue, hworkers, halive] at hidle ⊢
      by_cases hfree : (pool.alive && p'.busy < pool.workers) = true
      · have hfree' : (pool.alive && p.busy < pool.workers) = true := by
          simp only [Bool.and_eq_true, decide_eq_true_eq] at hfree ⊢
          exact ⟨hfree.1, Nat.lt_of_le_of_lt hbusy hfree.2⟩
        rw [if_pos hfree'] at hidle
        rw [if_pos hfree, hidle]
      · rw [if_neg hfree]

/-! ## The clock -/

section Clock

variable (setup : Setup) (p : Pipeline σ) (run : Run)

/-- To end a job takes no time. -/
theorem clock_finish (job : Job) (byWorker : Bool) (outcome : Outcome) :
    (p.finish setup job byWorker outcome).clock = p.clock := by rw [finish_eq]

/-- Nor does it take time to begin one. -/
theorem clock_begin (job : Job) (byWorker : Bool) :
    (p.begin setup job byWorker).clock = p.clock := by
  unfold begin
  split
  · exact clock_finish ..
  · rfl

/-- Nor to take one out of the queue. -/
theorem clock_take (job : Job) : (p.take setup job).clock = p.clock := by
  unfold take
  dsimp only
  split
  · rw [release_eq]
    rfl
  · exact clock_begin ..

/-- Nor to hand a prompt to the model. -/
theorem clock_ask (previous : Option Summary) : (p.ask setup run previous).clock = p.clock := by
  unfold ask
  dsimp only
  split
  · exact clock_finish ..
  · rfl

/-- Nor to hand a summary to the store. -/
theorem clock_keep (boundary : Nat) (output : ModelOutput) :
    (p.keep setup run boundary output).clock = p.clock := by
  unfold keep
  dsimp only
  split
  · exact clock_finish ..
  · rfl

variable [SummaryStore σ]

/-- Nor to go on after the last summary has been loaded. -/
theorem clock_loaded (ending : Option (Ending Unit)) :
    (p.loaded setup run ending).clock = p.clock := by
  unfold loaded
  split
  · exact clock_finish ..
  · exact clock_finish ..
  · exact clock_finish ..
  · split
    · exact clock_ask ..
    · exact clock_finish ..

/-- Nor to go on after the summary has been stored. -/
theorem clock_stored (summary : Summary) (ending : Ending Unit) :
    (p.stored setup run summary ending).clock = p.clock := by
  unfold stored
  split
  · exact clock_finish ..
  · exact clock_finish ..
  · split
    · exact clock_finish ..
    · exact clock_finish ..

/-- A step takes no time. -/
theorem clock_resume : (p.resume setup run).clock = p.clock := by
  unfold resume
  split
  · exact clock_loaded ..
  · unfold answered
    split
    · exact clock_finish ..
    · exact clock_finish ..
    · exact clock_finish ..
    · exact clock_keep ..
  · exact clock_stored ..

/-- The clock is never turned back. -/
theorem is_scheduled_clock : IsScheduled setup fun p p' : Pipeline σ => p.clock ≤ p'.clock where
  refl _ := Nat.le_refl _
  trans := Nat.le_trans
  turn _ _ := Nat.le_max_left _ _
  resume _ := Nat.le_of_eq (clock_resume ..).symm
  take _ := Nat.le_of_eq (clock_take ..).symm

/-- It is turned to the end of a call before the run goes on. -/
theorem due_le_clock_fire : run.due ≤ (p.fire setup run).clock := by
  have hproceed := (is_scheduled_clock setup).proceed run.job.number (p.turn run.due)
  have hdue := Nat.le_trans (Nat.le_max_right p.clock run.due) hproceed
  unfold fire
  dsimp only
  split
  · exact Nat.le_trans hdue ((is_scheduled_clock setup).settle _)
  · exact hdue

end Clock

variable [SummaryStore σ]

/-- If no worker has a job to take, nothing is settled. -/
theorem settle_eq_self {setup : Setup} {p : Pipeline σ} (hidle : p.nextJob? = none) :
    p.settle setup = p := by
  have hassign : p.assign setup = p := by
    unfold assign
    rw [hidle]
  unfold settle
  induction p.queue.length with
  | zero => rfl
  | succ n ih =>
      show assign setup (Nat.repeat _ n p) = p
      rw [ih, hassign]

/-! ## A job that is over -/

omit [SummaryStore σ] in
/-- A job that runs is one of the jobs. -/
theorem mem_jobs_of_run {p : Pipeline σ} {run : Run} (hrun : run ∈ p.runs) : run.job ∈ p.jobs := by
  show run.job ∈ p.queue ++ p.tickets.map Prod.fst
  exact List.mem_append_right _ (List.mem_map.2 ⟨_, List.mem_map.2 ⟨run, hrun, rfl⟩, rfl⟩)

omit [SummaryStore σ] in
/-- A number that no running job has is not found among the runs. -/
theorem run_eq_none_of_new {p : Pipeline σ} {number : Nat}
    (hnew : ∀ other ∈ p.runs, other.job.number ≠ number) : p.run? number = none := by
  show p.runs.find? _ = none
  rw [List.find?_eq_none]
  intro other hother
  simpa using hnew other hother

namespace Aftermath

variable [LawfulStore σ] {setup : Setup} {p p' : Pipeline σ} {job : Job} {byWorker : Bool}
  {outcome : Outcome} (h : p.Aftermath setup job byWorker outcome p')
include h

/-- In the pool only the record of what has become of its jobs is changed. -/
theorem exists_pool :
    ∃ f : Pool → Pool, p'.pool = p.pool.map f ∧
      ∀ pool, (f pool).queue = pool.queue ∧ (f pool).workers = pool.workers ∧
        (f pool).alive = pool.alive := by
  rw [h.pool]
  cases byWorker with
  | true => exact ⟨_, rfl, fun _ => ⟨rfl, rfl, rfl⟩⟩
  | false => exact ⟨id, (congrFun Option.map_id _).symm, fun _ => ⟨rfl, rfl, rfl⟩⟩

/-- If there was no job to take before, there is none now. -/
theorem next_job_eq_none (hidle : p.nextJob? = none) : p'.nextJob? = none := by
  obtain ⟨f, hpool, hf⟩ := h.exists_pool
  refine Pipeline.next_job_eq_none hidle hpool hf ?_
  show p.runs.countP _ ≤ p'.runs.countP _
  rw [h.runs]

/-- A job that is over does not run. -/
theorem run_eq_none (hnew : ∀ other ∈ p.runs, other.job.number ≠ job.number) :
    p'.run? job.number = none := by
  show p'.runs.find? _ = none
  rw [h.runs]
  exact run_eq_none_of_new hnew

/-- Nor does it wait. -/
theorem not_under_way (hnew : ∀ other ∈ p.jobs, other.number ≠ job.number) :
    p'.isUnderWay job.number = false := by
  obtain ⟨f, hpool, hf⟩ := h.exists_pool
  have hqueue : p'.queue = p.queue :=
    (queue_congr (p := p.onPool f) hpool).trans (queue_on_pool p fun pool => (hf pool).1)
  have hrun := h.run_eq_none fun run hrun => hnew run.job (mem_jobs_of_run hrun)
  show ((p'.run? job.number).isSome || p'.queue.any _) = false
  rw [hrun, hqueue, Option.isSome_none, Bool.false_or, List.any_eq_false]
  intro other hother
  simpa using hnew other (List.mem_append_left _ hother)

/-- Its outcome is the one that has been taken down, as it had none before. -/
theorem outcome_eq (hfresh : p.outcome? job.number = none) :
    p'.outcome? job.number = some outcome := by
  have hbefore : p.outcomes.lookup job.number = none := hfresh
  show p'.outcomes.lookup job.number = some outcome
  rw [h.outcomes, List.lookup_append, hbefore, Option.none_or]
  exact List.lookup_cons_self

end Aftermath

/-! ## A job that goes on -/

namespace Underway

variable {setup : Setup} {p p' : Pipeline σ} {run : Run} (h : p.Underway setup run p')
include h

/-- A job that goes on is found by its number. -/
theorem run_eq (hnew : ∀ other ∈ p.runs, other.job.number ≠ run.job.number) :
    p'.run? run.job.number = some run := by
  have hothers : p.runs.find? (·.job.number == run.job.number) = none := run_eq_none_of_new hnew
  show p'.runs.find? _ = some run
  rw [h.runs, List.find?_append, hothers, Option.none_or]
  simp

/-- If there was no job to take before, there is none now. -/
theorem next_job_eq_none (hidle : p.nextJob? = none) : p'.nextJob? = none := by
  refine Pipeline.next_job_eq_none (f := id) hidle ?_ (fun _ => ⟨rfl, rfl, rfl⟩) ?_
  · rw [h.pool, Option.map_id, id]
  · show p.runs.countP _ ≤ p'.runs.countP _
    rw [h.runs, List.countP_append]
    exact Nat.le_add_right _ _

/-- It is known as under way. -/
theorem is_under_way (hnew : ∀ other ∈ p.runs, other.job.number ≠ run.job.number) :
    p'.isUnderWay run.job.number = true := by
  show ((p'.run? run.job.number).isSome || _) = true
  rw [h.run_eq hnew, Option.isSome_some, Bool.true_or]

/-- The job goes on when its call is over. -/
theorem advance_eq (hnew : ∀ other ∈ p.runs, other.job.number ≠ run.job.number) :
    p'.advance setup run.job.number = if run.due ≤ p'.clock then p'.resume setup run else p' := by
  unfold Pipeline.advance
  rw [h.run_eq hnew]

/-- Time may pass. -/
theorem turn (clock : Nat) : p.Underway setup run (p'.turn clock) :=
  ⟨h.runs, h.log, h.store, h.counters, h.pool, h.outcomes, h.stage⟩

end Underway

namespace Within

variable [AtomicStore σ] {setup : Setup} {p p' : Pipeline σ} {job : Job} {byWorker : Bool} {n : Nat}
  (h : p.Within setup job byWorker n p')
include h

/-- The same whether the job is over or goes on. -/
theorem next_job_eq_none (hidle : p.nextJob? = none) : p'.nextJob? = none := by
  rcases h with ⟨outcome, hafter⟩ | ⟨run, hunder, -⟩
  · exact hafter.next_job_eq_none hidle
  · exact hunder.next_job_eq_none hidle

variable (hnew : ∀ other ∈ p.runs, other.job.number ≠ job.number)
include hnew

/-- A move of the job leaves no more calls than before. -/
theorem advance : p.Within setup job byWorker n (p'.advance setup job.number) := by
  rcases h with ⟨outcome, hafter⟩ | ⟨run, hunder, rfl, rfl, hcalls⟩
  · unfold Pipeline.advance
    rw [hafter.run_eq_none hnew]
    exact .inl ⟨outcome, hafter⟩
  · rw [hunder.advance_eq hnew]
    split
    · exact (hunder.resume hnew).mono (Nat.le_trans (Nat.sub_le _ _) hcalls)
    · exact .inr ⟨run, hunder, rfl, rfl, hcalls⟩

/-- Nor do as many moves as it can make at once. -/
theorem proceed : p.Within setup job byWorker n (p'.proceed setup job.number) :=
  ((h.advance hnew).advance hnew).advance hnew

end Within

/-- A call that is over makes a job go on. -/
theorem Underway.fire [AtomicStore σ] {setup : Setup} {p p' : Pipeline σ} {run : Run}
    (h : p.Underway setup run p') (hnew : ∀ other ∈ p.runs, other.job.number ≠ run.job.number)
    (hidle : p.nextJob? = none) :
    p.Within setup run.job run.byWorker (run.stage.callsLeft - 1) (p'.fire setup run) := by
  have hturn := h.turn run.due
  have hdue : run.due ≤ (p'.turn run.due).clock := Nat.le_max_right _ _
  have hfirst : p.Within setup run.job run.byWorker (run.stage.callsLeft - 1)
      ((p'.turn run.due).advance setup run.job.number) := by
    rw [hturn.advance_eq hnew, if_pos hdue]
    exact hturn.resume hnew
  have hproceed : p.Within setup run.job run.byWorker (run.stage.callsLeft - 1)
      ((p'.turn run.due).proceed setup run.job.number) := (hfirst.advance hnew).advance hnew
  unfold Pipeline.fire
  dsimp only
  split
  · rwa [settle_eq_self (hproceed.next_job_eq_none hidle)]
  · exact hproceed

/-! ## The end of a job -/

section Alone

variable [AtomicStore σ] {setup : Setup} {p p' : Pipeline σ} {job : Job} {byWorker : Bool}
  (hnew : ∀ other ∈ p.jobs, other.number ≠ job.number) (hidle : p.nextJob? = none)
include hnew hidle

/-- While nothing else is over, time passes from call to call of the job, until it is over. -/
theorem Within.pass_time {n fuel : Nat} (h : p.Within setup job byWorker n p') (hfuel : n < fuel)
    (hothers : ∀ run ∈ p.runs,
      (passTime setup (!isUnderWay job.number ·) none fuel p').clock < run.due) :
    ∃ outcome, p.Aftermath setup job byWorker outcome
      (passTime setup (!isUnderWay job.number ·) none fuel p') := by
  have hruns (other : Run) (hother : other ∈ p.runs) : other.job.number ≠ job.number :=
    hnew other.job (mem_jobs_of_run hother)
  induction fuel generalizing n p' with
  | zero => exact absurd hfuel (Nat.not_lt_zero n)
  | succ fuel ih =>
      unfold passTime at hothers ⊢
      rcases h with ⟨outcome, hafter⟩ | ⟨run, hunder, rfl, rfl, hcalls⟩
      · rw [if_pos (by rw [hafter.not_under_way hnew]; rfl)]
        exact ⟨outcome, hafter⟩
      · have hgoes := hunder.is_under_way hruns
        obtain ⟨next, hmem, hnext⟩ := exists_next_run (p := p') (by simp [hunder.runs])
        simp only [hgoes, hnext, isBefore, if_true, Bool.not_true, Bool.false_eq_true, if_false]
          at hothers ⊢
        rw [hunder.runs, List.mem_append, List.mem_singleton] at hmem
        rcases hmem with hother | rfl
        · -- Otherwise the clock would be turned to the end of another's call, and never back.
          have hpassed :=
            (is_scheduled_clock setup).pass_time (!isUnderWay run.job.number ·) none fuel
              (p'.fire setup next)
          have hover := Nat.le_trans (due_le_clock_fire setup p' next) hpassed
          exact absurd (hothers next hother) (Nat.not_lt.2 hover)
        · refine ih (hunder.fire hruns hidle) ?_ hothers
          have hpos := next.stage.calls_left_pos
          omega

/-- The caller waits long enough, as there are no more than three calls. -/
theorem Within.await (h : p.Within setup job byWorker 3 p')
    (hothers : ∀ run ∈ p.runs, (p'.await setup job.number).clock < run.due) :
    ∃ outcome, p.Aftermath setup job byWorker outcome (p'.await setup job.number) := by
  have hruns (other : Run) (hother : other ∈ p.runs) : other.job.number ≠ job.number :=
    hnew other.job (mem_jobs_of_run hother)
  have hsettle : p'.settle setup = p' := settle_eq_self (h.next_job_eq_none hidle)
  unfold Pipeline.await wait at hothers ⊢
  rcases h with ⟨outcome, hafter⟩ | ⟨run, hunder, rfl, rfl, hcalls⟩
  · rw [if_neg (by rw [hafter.not_under_way hnew]; exact Bool.false_ne_true)]
    exact ⟨outcome, hafter⟩
  · have hfuel : 3 < p'.workLeft + 1 := by
      show 3 < 3 * (p'.runs.length + p'.queue.length) + 1
      rw [hunder.runs, List.length_append, List.length_singleton]
      omega
    rw [if_pos (hunder.is_under_way hruns), hsettle] at hothers ⊢
    exact Within.pass_time hnew hidle (.inr ⟨run, hunder, rfl, rfl, hcalls⟩) hfuel hothers

end Alone

/-! ## Running a job -/

/-- Runs a job and waits for its end, whether the caller runs it or a worker. -/
def carryOut (setup : Setup) (p : Pipeline σ) (job : Job) (byWorker : Bool) : Pipeline σ :=
  ((p.begin setup job byWorker).proceed setup job.number).await setup job.number

/-- So the caller runs a job. -/
theorem execute_eq (setup : Setup) (p : Pipeline σ) (job : Job) :
    p.execute setup job = p.carryOut setup job false := rfl

/-- So a worker runs the job that it takes from the queue. -/
theorem await_assign_eq (setup : Setup) {p : Pipeline σ} {job : Job} (hnext : p.nextJob? = some job)
    (hopen : p.isClosing = false) :
    (p.assign setup).await setup job.number = p.popJob.carryOut setup job true := by
  unfold assign carryOut
  rw [hnext, ← take_of_open setup p job hopen]

/-- A job that runs while nothing else is over ends in exactly one outcome and leaves the aftermath
of it behind, whatever the store and the model do. -/
theorem exists_aftermath [AtomicStore σ] (setup : Setup) (p : Pipeline σ) (job : Job)
    (byWorker : Bool) (hnew : ∀ other ∈ p.jobs, other.number ≠ job.number)
    (hfresh : p.outcome? job.number = none) (hidle : p.nextJob? = none)
    (hothers : ∀ run ∈ p.runs, (p.carryOut setup job byWorker).clock < run.due) :
    ∃ outcome, (p.carryOut setup job byWorker).outcome? job.number = some outcome ∧
      p.Aftermath setup job byWorker outcome (p.carryOut setup job byWorker) := by
  have hruns (other : Run) (hother : other ∈ p.runs) : other.job.number ≠ job.number :=
    hnew other.job (mem_jobs_of_run hother)
  have hbegin := (within_begin setup p job byWorker hruns).proceed hruns
  obtain ⟨outcome, hafter⟩ := Within.await hnew hidle hbegin hothers
  exact ⟨outcome, hafter.outcome_eq hfresh, hafter⟩

/-- The caller has a summary made while the only worker is busy and another job waits for it. -/
theorem exists_aftermath_of_busy_worker :
    let key : SessionKey := ⟨"app", "user", "desk"⟩
    let scope : Scope := ⟨key, "plans"⟩
    let setup : Setup :=
      { summarizer := { reply := fun _ _ => ⟨20, .value ⟨" told ", {}⟩⟩ }
        link := { load := fun _ => ⟨5, .value ()⟩ }
        timeout := .ofSeconds 1
        start := ⟨0, 0⟩ }
    let event : Event :=
      { author := "user", branch := "plans", message := .user "hi", timestamp := ⟨0, 0⟩ }
    let p : Pipeline MemoryStore :=
      { log := ({} : SessionLog).append key event
        counters := (({} : TriggerCounters Scope.place).record scope 7 ⟨0, 0⟩).beginJob scope false
        store := {}
        runs := [⟨⟨1, .whole key, ⟨0, 0⟩, false⟩, true, 1000, .loading none, 1000⟩]
        pool := some
          { workers := 1, capacity := 2, grace := {}, queue := [⟨2, .whole key, ⟨0, 0⟩, false⟩] } }
    let job : Job := ⟨3, scope, ⟨0, 0⟩, true⟩
    let p' := p.carryOut setup job false
    let summary : Summary := ⟨"told", 1, ⟨0, 25000000⟩, {}⟩
    (∀ other ∈ p.jobs, other.number ≠ job.number) ∧ p.outcome? job.number = none ∧
      p.nextJob? = none ∧ (∀ run ∈ p.runs, p'.clock < run.due) ∧
      p'.outcome? job.number = some (.succeeded (some summary)) ∧
      p.Aftermath setup job false (.succeeded (some summary)) p' ∧
      p'.counters.snapshot scope =
        { windowStart := some ⟨0, 25000000⟩, lastEvent := some ⟨0, 0⟩ } := by
  intro key scope setup event p job p' summary
  have hnew : ∀ other ∈ p.jobs, other.number ≠ job.number := by decide
  have hclock : p'.clock = 25 := by decide +kernel
  have hothers : ∀ run ∈ p.runs, p'.clock < run.due := by
    intro run hrun
    rw [hclock, List.mem_singleton.1 hrun]
    decide
  have hsuccess : p'.outcome? job.number = some (.succeeded (some summary)) := by decide +kernel
  obtain ⟨outcome, houtcome, hafter⟩ := exists_aftermath setup p job false hnew rfl rfl hothers
  cases hsuccess.symm.trans houtcome
  refine ⟨hnew, rfl, rfl, hothers, hsuccess, hafter, ?_⟩
  exact (hafter.counted (by decide +kernel)).trans (by decide +kernel)

end Transcript.Pipeline
