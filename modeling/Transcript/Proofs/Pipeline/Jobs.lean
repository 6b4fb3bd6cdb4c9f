import Transcript.Pipeline.Basic
import Transcript.Proofs.Trigger.Counters

/-!
# The jobs of a pipeline

The jobs of a pipeline wait in the queue of its pool or run, and each scope counts those of them
that are tracked. Here every operation that has to do with jobs is told by what it does to them and
to the counts.
-/

namespace Transcript

/-- Whether a job counts for a scope. -/
def Job.countsFor (job : Job) (scope : Scope) : Bool := job.tracked && scope = job.scope

namespace Pipeline

variable {σ : Type}

/-! ## The jobs of a pipeline -/

/-- A pipeline in which nothing has happened yet. -/
def fresh (store : σ) (pool : Option PoolConfig) : Pipeline σ :=
  { store, pool := pool.map Pool.ofConfig }

/-- The jobs that run, and whether workers run them. -/
def tickets (p : Pipeline σ) : List (Job × Bool) := p.runs.map fun run => (run.job, run.byWorker)

/-- The jobs that workers run. -/
def workerJobs (p : Pipeline σ) : List Job := (p.tickets.filter Prod.snd).map Prod.fst

/-- The jobs that wait or run. -/
def jobs (p : Pipeline σ) : List Job := p.queue ++ p.tickets.map Prod.fst

/-- The number of jobs of a scope that wait or run. -/
def underWay (p : Pipeline σ) (scope : Scope) : Nat := p.jobs.countP (·.scope = scope)

/-- The number of jobs of a scope that are counted as waiting or running. -/
def inFlight (p : Pipeline σ) (scope : Scope) : Nat := p.counters.inFlight scope

/-- A new job, counted for its scope if it is tracked, and the pipeline that knows of it. -/
def makeJob (setup : Setup) (p : Pipeline σ) (scope : Scope) (tracked exclusive : Bool) :
    Job × Pipeline σ :=
  newJob setup (if tracked then { p with counters := p.counters.beginJob scope exclusive } else p)
    scope tracked

/-- The pipeline without the first job that waits. -/
def popJob (p : Pipeline σ) : Pipeline σ :=
  p.onPool fun pool => { pool with queue := pool.queue.tail }

/-- The pipeline with another run. -/
def addRun (p : Pipeline σ) (run : Run) : Pipeline σ := { p with runs := p.runs ++ [run] }

/-- Nothing happens to the jobs: the same wait, and the same run and have the same number
counted. -/
structure SameJobs (p p' : Pipeline σ) : Prop where
  pool : p'.pool = p.pool
  created : p'.created = p.created
  tickets : p'.tickets = p.tickets
  inFlight : ∀ scope, p'.inFlight scope = p.inFlight scope

/-! ## What operations do -/

section Effects

variable (setup : Setup) (p : Pipeline σ) (job : Job) (scope : Scope)

/-- The queue is that of the pool. -/
theorem queue_congr {p p' : Pipeline σ} (hpool : p'.pool = p.pool) : p'.queue = p.queue := by
  unfold queue
  rw [hpool]

/-- A change of the pool that keeps its queue. -/
theorem queue_on_pool {f : Pool → Pool} (hf : ∀ pool, (f pool).queue = pool.queue) :
    (p.onPool f).queue = p.queue := by
  unfold queue onPool
  cases p.pool with
  | none => rfl
  | some pool => exact hf pool

@[simp] theorem runs_on_pool (f : Pool → Pool) : (p.onPool f).runs = p.runs := rfl
@[simp] theorem created_on_pool (f : Pool → Pool) : (p.onPool f).created = p.created := rfl

/-- The tickets go by the runs alone. -/
theorem tickets_congr {p p' : Pipeline σ} (hruns : p'.runs = p.runs) : p'.tickets = p.tickets := by
  unfold tickets
  rw [hruns]

/-- A pool that is dissolved has nothing in its queue. -/
@[simp] theorem queue_dissolve : (p.onPool Pool.dissolve).queue = [] := by
  unfold queue onPool
  cases p.pool <;> rfl

/-- When the workers have nothing left to do, no jobs wait. -/
theorem queue_of_drained (hdrained : p.isDrained = true) : p.queue = [] := by
  unfold isDrained at hdrained
  rw [Bool.and_eq_true, List.isEmpty_iff] at hdrained
  exact hdrained.2

/-- A job is put behind those that wait. -/
theorem queue_push {pool : Pool} (hpool : p.pool = some pool) :
    (p.onPool (·.push job)).queue = p.queue ++ [job] := by
  simp [queue, onPool, hpool, Pool.push]

/-- The first of the jobs that wait is taken next. -/
theorem queue_of_next {job : Job} (hnext : p.nextJob? = some job) :
    p.queue = job :: p.popJob.queue := by
  unfold nextJob? at hnext
  split at hnext
  · obtain ⟨waiting, hqueue⟩ := List.head?_eq_some_iff.1 hnext
    have hpop : p.popJob.queue = p.queue.tail := by
      unfold queue popJob onPool
      cases p.pool <;> rfl
    rw [hpop, hqueue]
    rfl
  · cases hnext

/-- Only an idle worker takes a job. -/
theorem idle_of_next {p : Pipeline σ} {pool : Pool} {job : Job} (hpool : p.pool = some pool)
    (hnext : p.nextJob? = some job) : pool.alive = true ∧ p.busy < pool.workers := by
  unfold nextJob? at hnext
  split at hnext
  · rename_i hidle
    unfold hasIdleWorker at hidle
    rw [hpool] at hidle
    simpa using hidle
  · cases hnext

/-- To give a job up is to take it out of the count of its scope. -/
theorem release_eq :
    p.release job =
      { p with counters := if job.tracked then p.counters.endJob job.scope else p.counters } := by
  unfold release untrack
  split <;> rfl

/-- The workers of a closing pool give up the jobs that wait. -/
theorem take_of_closing (hclosing : p.isClosing = true) :
    p.take setup job = (p.popJob.onPool Pool.abandon).release job := by
  have hpop : p.popJob.isClosing = true := by
    rw [← hclosing]
    unfold isClosing popJob onPool
    cases p.pool <;> rfl
  exact if_pos hpop

/-- The workers of a pool that is not closing run them. -/
theorem take_of_open (hopen : p.isClosing = false) :
    p.take setup job = p.popJob.begin setup job true := by
  have hpop : p.popJob.isClosing = false := by
    rw [← hopen]
    unfold isClosing popJob onPool
    cases p.pool <;> rfl
  exact if_neg (Bool.not_eq_true _ ▸ hpop)

@[simp] theorem pool_release : (p.release job).pool = p.pool := by rw [release_eq]
@[simp] theorem runs_release : (p.release job).runs = p.runs := by rw [release_eq]
@[simp] theorem created_release : (p.release job).created = p.created := by rw [release_eq]

/-- All that the end of a job changes, side by side. -/
theorem finish_eq (byWorker : Bool) (outcome : Outcome) :
    p.finish setup job byWorker outcome =
      { p with
        runs := p.runs.filter (·.job.number != job.number)
        counters :=
          if job.tracked then (p.counters.reset job.scope (p.now setup)).endJob job.scope
          else p.counters.reset job.scope (p.now setup)
        outcomes := p.outcomes ++ [(job.number, outcome)]
        warnings := p.warnings + if outcome.isTrouble then 1 else 0
        pool := if byWorker then p.pool.map (·.record outcome) else p.pool } := by
  unfold finish untrack note onPool
  cases job.tracked <;> cases byWorker <;> rfl

/-- The end of a job that has only just begun leaves no trace of its run. -/
theorem finish_add_run (run : Run) (outcome : Outcome) :
    (p.addRun run).finish setup run.job run.byWorker outcome =
      p.finish setup run.job run.byWorker outcome := by
  rw [finish_eq, finish_eq]
  simp [addRun, List.filter_append, now]

/-- The jobs that wait go on waiting when another ends. -/
@[simp] theorem queue_finish (byWorker : Bool) (outcome : Outcome) :
    (p.finish setup job byWorker outcome).queue = p.queue := by
  rw [finish_eq]
  cases byWorker with
  | true => exact queue_on_pool p fun _ => rfl
  | false => rfl

/-- What is known of a new job, and what its making leaves alone. -/
theorem make_job_eq (tracked exclusive : Bool) :
    p.makeJob setup scope tracked exclusive =
      (⟨p.created + 1, scope, p.now setup, tracked⟩,
        { p with
          counters := if tracked then p.counters.beginJob scope exclusive else p.counters
          created := p.created + 1 }) := by
  unfold makeJob newJob
  cases tracked <;> rfl

/-- A new job gets the next number, and it does not wait or run yet. -/
theorem make_job_inv {setup : Setup} {p made : Pipeline σ} {job : Job} {scope : Scope}
    {tracked exclusive : Bool} (hmade : p.makeJob setup scope tracked exclusive = (job, made)) :
    (job.number = p.created + 1 ∧ job.scope = scope ∧ job.tracked = tracked) ∧
      made.created = p.created + 1 ∧ made.pool = p.pool ∧ made.runs = p.runs := by
  rw [make_job_eq, Prod.mk.injEq] at hmade
  obtain ⟨rfl, rfl⟩ := hmade
  exact ⟨⟨rfl, rfl, rfl⟩, rfl, rfl, rfl⟩

/-- A job is let into the queue of a pool that is not closing and has room for it. Otherwise it is
given up, and counted as dropped if room is what is missing. -/
theorem enqueue_cases {p p' : Pipeline σ} {job : Job} {answer : EnqueueOutcome}
    (henqueue : p.enqueue job = (answer, p')) :
    (∃ pool, p.pool = some pool ∧ pool.closing = false ∧ pool.hasRoom = true ∧
      answer = .enqueued job.number ∧ p' = p.onPool (·.push job)) ∨
    (∃ pool, p.pool = some pool ∧ pool.closing = false ∧ pool.hasRoom = false ∧
      answer = .dropped (.queueFull job.scope.text) ∧
      p' = ((p.onPool Pool.drop).warn).release job) ∨
    ((∀ pool, p.pool = some pool → pool.closing = true) ∧
      answer = .dropped .closed ∧ p' = p.release job) := by
  unfold enqueue at henqueue
  cases hpool : p.pool with
  | none =>
      rw [hpool] at henqueue
      cases henqueue
      simp
  | some pool =>
      rw [hpool] at henqueue
      cases hclosing : pool.closing with
      | true =>
          simp only [hclosing, if_true] at henqueue
          cases henqueue
          simp [hclosing]
      | false =>
          cases hroom : pool.hasRoom <;> simp only [hclosing, hroom, if_true] at henqueue <;>
            cases henqueue <;> simp [hclosing, hroom]

/-- Nothing begins to run at once. -/
theorem runs_enqueue {p p' : Pipeline σ} {job : Job} {answer : EnqueueOutcome}
    (henqueue : p.enqueue job = (answer, p')) : p'.runs = p.runs := by
  rcases enqueue_cases henqueue with
    ⟨pool, -, -, -, -, rfl⟩ | ⟨pool, -, -, -, -, rfl⟩ | ⟨-, -, rfl⟩
  · exact runs_on_pool _ _
  · exact (runs_release _ _).trans (runs_on_pool p Pool.drop)
  · exact runs_release _ _

/-- A request makes no job beside the one that it is about. -/
theorem created_enqueue {p p' : Pipeline σ} {job : Job} {answer : EnqueueOutcome}
    (henqueue : p.enqueue job = (answer, p')) : p'.created = p.created := by
  rcases enqueue_cases henqueue with
    ⟨pool, -, -, -, -, rfl⟩ | ⟨pool, -, -, -, -, rfl⟩ | ⟨-, -, rfl⟩
  · exact created_on_pool _ _
  · exact (created_release _ _).trans (created_on_pool p Pool.drop)
  · exact created_release _ _

/-- What a release takes off the count of a scope. -/
theorem in_flight_release (other : Scope) :
    (p.release job).inFlight other = p.inFlight other - if job.countsFor other then 1 else 0 := by
  rw [release_eq]
  unfold inFlight Job.countsFor
  cases htracked : job.tracked with
  | false => simp
  | true =>
      simp only [if_true, Bool.true_and, TriggerCounters.in_flight_end_job, decide_eq_true_eq]

/-- Beside that, a job that is given up changes nothing about the other scopes. -/
theorem snapshot_release_of_ne {other : Scope} (hne : other ≠ job.scope) :
    (p.release job).counters.snapshot other = p.counters.snapshot other := by
  rw [release_eq]
  dsimp only
  split
  · exact (p.counters.snapshot_end_job job.scope other).trans (if_neg hne)
  · rfl

/-- The end of a job takes as much off. -/
theorem in_flight_finish (byWorker : Bool) (outcome : Outcome) (other : Scope) :
    (p.finish setup job byWorker outcome).inFlight other =
      p.inFlight other - if job.countsFor other then 1 else 0 := by
  rw [finish_eq]
  unfold inFlight Job.countsFor
  cases htracked : job.tracked with
  | false => simp
  | true =>
      simp only [if_true, Bool.true_and, TriggerCounters.in_flight_end_job,
        TriggerCounters.in_flight_reset, decide_eq_true_eq]

/-- A new job that is tracked adds one to the count of its scope. -/
theorem in_flight_make_job {made : Pipeline σ} {tracked exclusive : Bool}
    (hmade : p.makeJob setup scope tracked exclusive = (job, made))
    (hadmits : tracked = true → p.counters.admits scope exclusive = true) (other : Scope) :
    made.inFlight other = p.inFlight other + if job.countsFor other then 1 else 0 := by
  rw [make_job_eq, Prod.mk.injEq] at hmade
  obtain ⟨rfl, rfl⟩ := hmade
  unfold inFlight Job.countsFor
  cases tracked with
  | false => simp
  | true =>
      simp only [if_true, Bool.true_and, TriggerCounters.in_flight_begin_job _ _ _ (hadmits rfl),
        decide_eq_true_eq]

end Effects

/-! ## Numbers -/

/-- The numbers of the jobs that wait or run are different, and have been given. -/
structure Distinct (p : Pipeline σ) : Prop where
  nodup : (p.jobs.map Job.number).Nodup
  le : ∀ job ∈ p.jobs, job.number ≤ p.created

/-- A pipeline without jobs has none twice. -/
theorem distinct_fresh (store : σ) (pool : Option PoolConfig) : (fresh store pool).Distinct := by
  have hjobs : (fresh store pool).jobs = [] := by cases pool <;> rfl
  constructor
  · rw [hjobs]
    exact List.nodup_nil
  · intro job hjob
    rw [hjobs] at hjob
    cases hjob

/-- A pipeline without jobs counts none. -/
theorem in_flight_fresh (store : σ) (pool : Option PoolConfig) (scope : Scope) :
    (fresh store pool).inFlight scope = 0 := TriggerCounters.in_flight_empty scope

/-- Of runs with different numbers, one goes when its job ends. -/
theorem perm_cons_filter {runs : List Run} (hnodup : (runs.map fun r => r.job.number).Nodup)
    {run : Run} (hrun : run ∈ runs) :
    runs.Perm (run :: runs.filter (·.job.number != run.job.number)) := by
  induction runs with
  | nil => cases hrun
  | cons r rs ih =>
      obtain ⟨hnew, hrest⟩ := List.nodup_cons.1 hnodup
      rcases List.mem_cons.1 hrun with rfl | hlater
      · have hothers : rs.filter (·.job.number != run.job.number) = rs := by
          rw [List.filter_eq_self]
          intro other hother
          rw [bne_iff_ne]
          intro heq
          exact hnew (List.mem_map.2 ⟨other, hother, heq⟩)
        simp [hothers]
      · have hne : r.job.number ≠ run.job.number := by
          intro heq
          exact hnew (List.mem_map.2 ⟨run, hlater, heq.symm⟩)
        rw [List.filter_cons_of_pos (by simpa using hne)]
        exact ((ih hrest hlater).cons r).trans (.swap run r _)

/-- No job runs twice. -/
theorem Distinct.runs_nodup {p : Pipeline σ} (h : p.Distinct) :
    (p.runs.map fun r => r.job.number).Nodup := by
  have hnodup := h.nodup
  unfold jobs tickets at hnodup
  rw [List.map_append, List.map_map, List.map_map] at hnodup
  exact (List.nodup_append.1 hnodup).2.1

end Pipeline

end Transcript
