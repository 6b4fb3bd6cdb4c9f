import Transcript.Proofs.Pipeline.Execution

/-!
# Who runs a job

A job takes the same course whether the caller runs it or a worker does. `Pipeline.Abreast` compares
the pipeline in which the caller runs a job with one in which a worker does, as long as nothing else
runs or waits. Whatever the store and the model do, a call that is over takes both pipelines on
alike (`Pipeline.Solo.resume`). So when the job is over they differ in nothing but the stats of the
pool, however long the caller of the second one waits (`Pipeline.AtRest.exists_outcome`).
-/

namespace Transcript

/-- The run as a worker has it. -/
def Run.handedOver (run : Run) : Run := { run with byWorker := true }

/-- The pool that has let in a job, which does not wait any more. -/
def Pool.admit (pool : Pool) : Pool := { pool with stats.enqueued := pool.stats.enqueued + 1 }

namespace Pipeline

variable {σ : Type}

/-- The pipeline in which workers run what the caller runs in this one, and the pool is another. -/
def handedOver (p : Pipeline σ) (f : Pool → Pool) : Pipeline σ :=
  { p with runs := p.runs.map Run.handedOver, pool := p.pool.map f }

/-- The caller runs a single job, and in the pool and among the outcomes nothing has changed since
`first`. -/
structure Solo (first p : Pipeline σ) (run : Run) : Prop where
  runs : p.runs = [run]
  byCaller : run.byWorker = false
  pool : p.pool = first.pool
  outcomes : p.outcomes = first.outcomes

/-- Two pipelines of which the first has come from `first`. A job is run by the caller in the one
and by a worker in the other, and it makes so many more calls at most, or it is over in both with
the same outcome. There is no other difference than that the pool of the second has let the job in
and has recorded its end. -/
inductive Abreast (first : Pipeline σ) (job : Job) (n : Nat) : Pipeline σ → Pipeline σ → Prop where
  | running {p : Pipeline σ} {run : Run} (hsolo : Solo first p run) (hjob : run.job = job)
      (hcalls : run.stage.callsLeft ≤ n) : Abreast first job n p (p.handedOver Pool.admit)
  | ended {p : Pipeline σ} {outcome : Outcome} (hruns : p.runs = []) (hpool : p.pool = first.pool)
      (houtcomes : p.outcomes = first.outcomes ++ [(job.number, outcome)]) :
      Abreast first job n p (p.handedOver fun pool => pool.admit.record outcome)

variable {first p q : Pipeline σ} {job : Job} {run : Run} {m n : Nat}

/-- A bound on the calls that are left may be raised. -/
theorem Abreast.mono (h : Abreast first job n p q) (hle : n ≤ m) : Abreast first job m p q := by
  cases h with
  | running hsolo hjob hcalls => exact .running hsolo hjob (Nat.le_trans hcalls hle)
  | ended hruns hpool houtcomes => exact .ended hruns hpool houtcomes

/-! ## What steps have to do with who runs a job -/

section Steps

variable (setup : Setup) (p : Pipeline σ) (f : Pool → Pool)

/-- The end of a job that a worker has run is recorded in the pool. -/
theorem finish_handed_over (job : Job) (outcome : Outcome) :
    (p.handedOver f).finish setup job true outcome =
      (p.finish setup job false outcome).handedOver fun pool => (f pool).record outcome := by
  have hruns : (p.runs.map Run.handedOver).filter (·.job.number != job.number) =
      (p.runs.filter (·.job.number != job.number)).map Run.handedOver := List.filter_map
  rw [finish_eq, finish_eq]
  unfold handedOver
  simp only [hruns, if_true, Bool.false_eq_true, if_false, Option.map_map]
  rfl

/-- A run is put in the place of another, whoever runs them. -/
theorem put_run_handed_over (run : Run) :
    (p.handedOver f).putRun run.handedOver = (p.putRun run).handedOver f := by
  have hruns : (p.runs.map Run.handedOver).map
        (fun r => if r.job.number = run.handedOver.job.number then run.handedOver else r) =
      (p.runs.map fun r => if r.job.number = run.job.number then run else r).map
        Run.handedOver := by
    rw [List.map_map, List.map_map]
    refine List.map_congr_left fun r _ => ?_
    exact (apply_ite Run.handedOver (r.job.number = run.job.number) run r).symm
  unfold putRun
  exact congrArg (fun runs => { p.handedOver f with runs }) hruns

end Steps

/-- A job that ends, though others do not run, ends in both pipelines with the same outcome. -/
theorem abreast_finish {setup : Setup} (hruns : ∀ run ∈ p.runs, run.job.number = job.number)
    (hpool : p.pool = first.pool) (houtcomes : p.outcomes = first.outcomes) (outcome : Outcome) :
    Abreast first job n (p.finish setup job false outcome)
      ((p.handedOver Pool.admit).finish setup job true outcome) := by
  rw [finish_handed_over]
  refine .ended ?_ ?_ ?_
  · rw [finish_eq]
    exact List.filter_eq_nil_iff.2 (by simpa using hruns)
  · rw [finish_eq]
    exact hpool
  · rw [finish_eq, houtcomes]

namespace Solo

variable {setup : Setup} (h : Solo first p run)
include h

/-- The job is still the only one when it has handed something over to the model or the store. -/
theorem alter (prompts : List String) (stores : Nat) (store : σ) :
    Solo first { p with prompts, stores, store } run := ⟨h.runs, h.byCaller, h.pool, h.outcomes⟩

/-- The job ends in both pipelines with the same outcome. -/
theorem finish (outcome : Outcome) :
    Abreast first run.job n (p.finish setup run.job run.byWorker outcome)
      ((p.handedOver Pool.admit).finish setup run.job run.handedOver.byWorker outcome) := by
  rw [h.byCaller]
  exact abreast_finish (by simp [h.runs]) h.pool h.outcomes outcome

/-- Or it goes on in both of them. -/
theorem put_run {run' : Run} (hjob : run'.job = run.job) (hcaller : run'.byWorker = false)
    (hcalls : run'.stage.callsLeft ≤ n) :
    Abreast first run.job n (p.putRun run') ((p.handedOver Pool.admit).putRun run'.handedOver) := by
  rw [put_run_handed_over]
  refine .running ⟨?_, hcaller, h.pool, h.outcomes⟩ hjob hcalls
  show p.runs.map _ = _
  rw [h.runs, hjob]
  simp

/-- Both ask the model the same, or neither does. -/
theorem ask (previous : Option Summary) :
    Abreast first run.job 2 (p.ask setup run previous)
      ((p.handedOver Pool.admit).ask setup run.handedOver previous) := by
  unfold Pipeline.ask
  dsimp only [handedOver, Run.handedOver]
  generalize p.log.eventsAfter run.job.scope.session run.job.scope.filter
    (previous.map Summary.coveredUntil) = events
  cases events.getLast? with
  | none => exact h.finish _
  | some last =>
      have hasked :=
        h.alter (p.prompts ++ [setup.template.render (previous.map Summary.text) events])
          p.stores p.store
      refine hasked.put_run ?_ ?_ ?_
      · rfl
      · exact h.byCaller
      · exact Nat.le_refl 2

/-- Both store the same summary, or neither does. -/
theorem keep (boundary : Nat) (output : ModelOutput) :
    Abreast first run.job 1 (p.keep setup run boundary output)
      ((p.handedOver Pool.admit).keep setup run.handedOver boundary output) := by
  unfold Pipeline.keep
  dsimp only [handedOver, Run.handedOver]
  split
  · exact h.finish _
  · refine (h.alter p.prompts (p.stores + 1) p.store).put_run ?_ ?_ ?_
    · rfl
    · exact h.byCaller
    · exact Nat.le_refl 1

/-- What the model answers leads to the same in both pipelines. -/
theorem answered (boundary : Nat) (ending : Option (Ending ModelOutput)) :
    Abreast first run.job 1 (p.answered setup run boundary ending)
      ((p.handedOver Pool.admit).answered setup run.handedOver boundary ending) := by
  rcases ending with _ | (output | reason | message)
  · exact h.finish _
  · exact h.keep boundary output
  · exact h.finish _
  · exact h.finish _

variable [SummaryStore σ]

/-- So does what the store says about the last summary. -/
theorem loaded (ending : Option (Ending Unit)) :
    Abreast first run.job 2 (p.loaded setup run ending)
      ((p.handedOver Pool.admit).loaded setup run.handedOver ending) := by
  rcases ending with _ | (value | reason | message)
  · exact h.finish _
  · unfold Pipeline.loaded
    dsimp only [handedOver, Run.handedOver]
    cases SummaryStore.load p.store run.job.scope with
    | ok previous => exact h.ask previous
    | error f => exact h.finish _
  · exact h.finish _
  · exact h.finish _

/-- So does what the store says about the new one. -/
theorem stored (summary : Summary) (ending : Ending Unit) :
    Abreast first run.job 0 (p.stored setup run summary ending)
      ((p.handedOver Pool.admit).stored setup run.handedOver summary ending) := by
  rcases ending with value | reason | message
  · unfold Pipeline.stored
    dsimp only [handedOver, Run.handedOver]
    obtain ⟨result, store⟩ := SummaryStore.store p.store run.job.scope summary
    have hstored := h.alter p.prompts p.stores store
    cases result with
    | ok value => exact hstored.finish _
    | error f => exact hstored.finish _
  · exact h.finish _
  · exact h.finish _

/-- A call that is over takes both on alike. -/
theorem resume :
    Abreast first run.job (run.stage.callsLeft - 1) (p.resume setup run)
      ((p.handedOver Pool.admit).resume setup run.handedOver) := by
  obtain ⟨job, byWorker, deadline, stage, due⟩ := run
  cases stage with
  | loading ending => exact h.loaded ending
  | asking boundary ending => exact h.answered boundary ending
  | storing summary ending => exact h.stored summary ending

end Solo

/-! ## A job that runs alone -/

/-- The only job is found by its number. -/
theorem Solo.run_eq (h : Solo first p run) : p.run? run.job.number = some run := by
  unfold run?
  rw [h.runs]
  exact List.find?_cons_of_pos (beq_self_eq_true _)

/-- The same when a worker runs it. -/
theorem Solo.run_handed_over_eq (h : Solo first p run) (f : Pool → Pool) :
    (p.handedOver f).run? run.job.number = some run.handedOver := by
  unfold run? handedOver
  rw [h.runs]
  exact List.find?_cons_of_pos (beq_self_eq_true _)

namespace Abreast

variable (h : Abreast first job n p q)
include h

/-- The same jobs wait as at first. -/
theorem queue_eq : p.queue = first.queue ∧ q.queue = first.queue := by
  have hqueue {p : Pipeline σ} (hpool : p.pool = first.pool) {f : Pool → Pool}
      (hf : ∀ pool, (f pool).queue = pool.queue) :
      p.queue = first.queue ∧ (p.handedOver f).queue = first.queue := by
    have hsame : p.queue = first.queue := queue_congr hpool
    exact ⟨hsame, (queue_on_pool p hf).trans hsame⟩
  cases h with
  | running hsolo => exact hqueue hsolo.pool fun _ => rfl
  | ended _ hpool => exact hqueue hpool fun _ => rfl

/-- The fuel is enough for the calls that are left. -/
theorem exists_fuel (hle : n ≤ 3) :
    ∃ m, Abreast first job m p q ∧ m < p.workLeft + 1 ∧ m < q.workLeft + 1 := by
  cases h with
  | running hsolo hjob hcalls =>
      refine ⟨3, .running hsolo hjob (Nat.le_trans hcalls hle), ?_, ?_⟩
      · simp only [workLeft, hsolo.runs, List.length_singleton]
        omega
      · simp only [workLeft, handedOver, hsolo.runs, List.map_cons, List.map_nil,
          List.length_singleton]
        omega
  | ended hruns hpool houtcomes =>
      exact ⟨0, .ended hruns hpool houtcomes, Nat.succ_pos _, Nat.succ_pos _⟩

variable (hqueue : first.queue = [])
include hqueue

/-- Where no job waits, neither pool has one to give out. -/
theorem next_job_eq_none : p.nextJob? = none ∧ q.nextJob? = none := by
  obtain ⟨hp, hq⟩ := h.queue_eq
  unfold nextJob?
  rw [hp, hq, hqueue]
  simp

end Abreast

/-- The only job is under way in both pipelines. -/
theorem Solo.is_under_way (h : Solo first p run) (f : Pool → Pool) :
    p.isUnderWay run.job.number = true ∧ (p.handedOver f).isUnderWay run.job.number = true := by
  unfold isUnderWay
  rw [h.run_eq, h.run_handed_over_eq f]
  exact ⟨rfl, rfl⟩

/-! ## Time -/

section Time

variable [SummaryStore σ] (setup : Setup)

/-- Whether a job goes on is a matter of its call, and not of who runs it. -/
theorem Solo.advance_eq (h : Solo first p run) :
    p.advance setup run.job.number = (if run.due ≤ p.clock then p.resume setup run else p) ∧
      (p.handedOver Pool.admit).advance setup run.job.number =
        if run.due ≤ p.clock then (p.handedOver Pool.admit).resume setup run.handedOver
        else p.handedOver Pool.admit := by
  unfold Pipeline.advance
  rw [h.run_eq, h.run_handed_over_eq Pool.admit]
  exact ⟨rfl, rfl⟩

/-- A move of the job keeps the pipelines abreast. -/
theorem Abreast.advance (h : Abreast first job n p q) :
    Abreast first job n (p.advance setup job.number) (q.advance setup job.number) := by
  cases h with
  | running hsolo hjob hcalls =>
      subst hjob
      obtain ⟨hcaller, hworker⟩ := hsolo.advance_eq setup
      rw [hcaller, hworker]
      split
      · exact hsolo.resume.mono (Nat.le_trans (Nat.sub_le _ _) hcalls)
      · exact .running hsolo rfl hcalls
  | ended hruns hpool houtcomes =>
      unfold Pipeline.advance
      rw [run_eq_none_of_new (by simp [hruns]), run_eq_none_of_new (by simp [handedOver, hruns])]
      exact .ended hruns hpool houtcomes

/-- So do as many moves as the job can make at once. -/
theorem Abreast.proceed (h : Abreast first job n p q) :
    Abreast first job n (p.proceed setup job.number) (q.proceed setup job.number) :=
  ((h.advance setup).advance setup).advance setup

omit [SummaryStore σ] in
/-- Time may pass for the only job. -/
theorem Solo.turn (h : Solo first p run) (clock : Nat) : Solo first (p.turn clock) run :=
  ⟨h.runs, h.byCaller, h.pool, h.outcomes⟩

/-- When the call of the job is over, the job goes on. No worker has another job to take. -/
theorem Solo.fire (h : Solo first p run) (hqueue : first.queue = []) :
    Abreast first run.job (run.stage.callsLeft - 1) (p.fire setup run)
      ((p.handedOver Pool.admit).fire setup run.handedOver) := by
  have hturn := h.turn run.due
  have hdue : run.due ≤ (p.turn run.due).clock := Nat.le_max_right _ _
  have hfirst : Abreast first run.job (run.stage.callsLeft - 1)
      ((p.turn run.due).advance setup run.job.number)
      (((p.turn run.due).handedOver Pool.admit).advance setup run.job.number) := by
    obtain ⟨hcaller, hworker⟩ := hturn.advance_eq setup
    rw [hcaller, hworker, if_pos hdue, if_pos hdue]
    exact hturn.resume
  have hproceed := (hfirst.advance setup).advance setup
  have hcaller : p.fire setup run = (p.turn run.due).proceed setup run.job.number :=
    if_neg (by rw [h.byCaller]; exact Bool.false_ne_true)
  have hworker : (p.handedOver Pool.admit).fire setup run.handedOver =
      ((p.turn run.due).handedOver Pool.admit).proceed setup run.job.number :=
    settle_eq_self (hproceed.next_job_eq_none hqueue).2
  rw [hcaller, hworker]
  exact hproceed

/-- Where nothing runs, nothing happens in time. -/
theorem pass_time_of_no_runs (hruns : p.runs = []) (done : Pipeline σ → Bool) (limit : Option Nat)
    (fuel : Nat) : passTime setup done limit fuel p = p := by
  cases fuel with
  | zero => rfl
  | succ fuel =>
      unfold passTime nextRun?
      rw [hruns]
      exact ite_self p

/-- To wait for a job is to let time pass until it is over, if no worker has a job to take. -/
theorem await_eq_pass_time (hidle : p.nextJob? = none) (number : Nat) :
    p.await setup number = passTime setup (!isUnderWay number ·) none (p.workLeft + 1) p := by
  unfold await wait
  rw [settle_eq_self hidle]
  cases hunder : p.isUnderWay number with
  | true => rfl
  | false =>
      rw [passTime, hunder]
      rfl

/-- The job runs until it is over in the first pipeline. When time has passed in the second one, it
is over there too, with the same outcome, unless the caller of the second one would not wait any
longer. -/
theorem Abreast.pass_time (h : Abreast first job n p q) (hqueue : first.queue = [])
    {fuel fuel' : Nat} (hfuel : n < fuel) (hfuel' : n < fuel') (done : Pipeline σ → Bool)
    (limit : Option Nat) :
    let p' := passTime setup (!isUnderWay job.number ·) none fuel p
    let q' := passTime setup done limit fuel' q
    Abreast first job 0 p' q' ∨
      q'.isUnderWay job.number = true ∧ (done q' = true ∨ ∃ l, limit = some l ∧ l ≤ p'.clock) := by
  intro p' q'
  -- The induction goes by the fuel of the first pipeline, which waits for the job and for nothing
  -- else.
  induction fuel generalizing n p q fuel' with
  | zero => exact absurd hfuel (Nat.not_lt_zero n)
  | succ fuel ih =>
      obtain ⟨fuel', rfl⟩ := Nat.exists_eq_add_one.2 (Nat.zero_lt_of_lt hfuel')
      cases h with
      | @ended outcome hruns hpool houtcomes =>
          have hruns' : (p.handedOver fun pool => pool.admit.record outcome).runs = [] := by
            simp [handedOver, hruns]
          have hcaller : p' = p := pass_time_of_no_runs setup hruns _ _ _
          have hworker : q' = p.handedOver _ := pass_time_of_no_runs setup hruns' _ _ _
          rw [hcaller, hworker]
          exact .inl (.ended hruns hpool houtcomes)
      | @running run hsolo hjob hcalls =>
          subst hjob
          obtain ⟨hunder, hunder'⟩ := hsolo.is_under_way Pool.admit
          have hpos := run.stage.calls_left_pos
          have hnext : p.nextRun? = some run := by rw [nextRun?, hsolo.runs]; rfl
          have hnext' : (p.handedOver Pool.admit).nextRun? = some run.handedOver := by
            rw [nextRun?, handedOver, hsolo.runs]
            rfl
          have hcaller :
              p' = passTime setup (!isUnderWay run.job.number ·) none fuel (p.fire setup run) := by
            show passTime setup _ none (fuel + 1) p = _
            rw [passTime, hnext, hunder]
            rfl
          have hworker : q' =
              if done (p.handedOver Pool.admit) then p.handedOver Pool.admit
              else if isBefore run.due limit then
                passTime setup done limit fuel'
                  ((p.handedOver Pool.admit).fire setup run.handedOver)
              else p.handedOver Pool.admit := by
            show passTime setup done limit (fuel' + 1) _ = _
            rw [passTime, hnext']
            rfl
          rw [hcaller, hworker]
          by_cases hdone : done (p.handedOver Pool.admit) = true
          · -- The caller of the second pipeline has what he waits for, and the job goes on there.
            rw [if_pos hdone]
            exact .inr ⟨hunder', .inl hdone⟩
          · rw [if_neg hdone]
            by_cases hlimit : isBefore run.due limit = true
            · rw [if_pos hlimit]
              exact ih (hsolo.fire setup hqueue) (by omega) (by omega)
            · -- He would not wait for the next call to end, and the first pipeline goes on.
              rw [if_neg hlimit]
              have hpassed := (is_scheduled_clock setup).pass_time
                (!isUnderWay run.job.number ·) none fuel (p.fire setup run)
              have hover := Nat.le_trans (due_le_clock_fire setup p run) hpassed
              cases limit with
              | none => exact absurd rfl hlimit
              | some l =>
                  have hl : l ≤ run.due := by simpa [isBefore] using hlimit
                  exact .inr ⟨hunder', .inr ⟨l, rfl, Nat.le_trans hl hover⟩⟩

end Time

/-! ## From the start to the end -/

/-- Nothing runs or waits, and an idle worker is there to take the next job. -/
structure AtRest (p : Pipeline σ) : Prop where
  runs : p.runs = []
  queue : p.queue = []
  worker : p.hasIdleWorker = true
  isOpen : p.isClosing = false

namespace AtRest

variable (h : AtRest first) (setup : Setup) (job : Job)
include h

/-- A job that begins in both pipelines has three calls left at most. -/
theorem begin :
    Abreast first job 3 (first.begin setup job false)
      ((first.handedOver Pool.admit).begin setup job true) := by
  unfold Pipeline.begin
  rw [show (first.handedOver Pool.admit).clock = first.clock from rfl]
  cases setup.deadline? first.clock with
  | none => exact abreast_finish (by simp [h.runs]) rfl rfl _
  | some deadline =>
      dsimp only [handedOver]
      rw [h.runs]
      exact .running ⟨rfl, rfl, rfl, rfl⟩ rfl (Nat.le_refl 3)

omit setup job in
/-- The pool is there, and its queue is empty. -/
theorem exists_pool : ∃ pool, first.pool = some pool ∧ pool.queue = [] := by
  have hworker := h.worker
  have hqueue := h.queue
  unfold hasIdleWorker at hworker
  unfold Pipeline.queue at hqueue
  cases hpool : first.pool with
  | none => simp [hpool] at hworker
  | some pool =>
      rw [hpool] at hqueue
      exact ⟨pool, rfl, hqueue⟩

/-- The job waits at the front of the queue. -/
theorem queue_push : (first.onPool (·.push job)).queue = [job] := by
  obtain ⟨pool, hpool, -⟩ := h.exists_pool
  rw [Pipeline.queue_push _ _ hpool, h.queue]
  rfl

/-- The pool has only let it in when it is taken out again. -/
theorem pop_push : (first.onPool (·.push job)).popJob = first.handedOver Pool.admit := by
  obtain ⟨pool, hpool, hqueue⟩ := h.exists_pool
  have hpush : Option.map (fun pool : Pool => { pool with queue := pool.queue.tail })
      (Option.map (·.push job) first.pool) = first.pool.map Pool.admit := by
    rw [hpool]
    simp [Pool.push, Pool.admit, hqueue]
  unfold popJob onPool handedOver
  rw [hpush, h.runs]
  rfl

/-- It is at once taken by the idle worker. -/
theorem settle_push [SummaryStore σ] :
    (first.onPool (·.push job)).settle setup =
      ((first.handedOver Pool.admit).begin setup job true).proceed setup job.number := by
  have hqueue := h.queue_push job
  have hidle : (first.onPool (·.push job)).hasIdleWorker = true := by
    rw [← h.worker]
    unfold hasIdleWorker onPool
    cases first.pool <;> rfl
  have hopen : (first.onPool (·.push job)).isClosing = false := by
    rw [← h.isOpen]
    unfold isClosing onPool
    cases first.pool <;> rfl
  have hnext : (first.onPool (·.push job)).nextJob? = some job := by
    unfold nextJob?
    rw [hidle, hqueue]
    rfl
  have hassign : (first.onPool (·.push job)).assign setup =
      ((first.handedOver Pool.admit).begin setup job true).proceed setup job.number := by
    unfold assign
    rw [hnext]
    show (take _ _ _).proceed _ _ = _
    rw [take_of_open _ _ _ hopen, h.pop_push]
  unfold settle
  rw [hqueue]
  exact hassign

/-- The caller runs the job and waits for it, or he leaves it to a worker and waits for whatever he
likes. When he has waited the job is over in both pipelines, with the same outcome, unless it is
still under way in the second one because he would not wait any longer. -/
theorem hand_over [SummaryStore σ] (done : Pipeline σ → Bool) (limit : Option Nat) :
    let caller := first.execute setup job
    let worker := (first.onPool (·.push job)).wait setup done limit
    Abreast first job 0 caller worker ∨
      worker.isUnderWay job.number = true ∧
        (done worker = true ∨ ∃ l, limit = some l ∧ l ≤ caller.clock) := by
  intro caller worker
  have hstart := (h.begin setup job).proceed setup
  have hidle := hstart.next_job_eq_none h.queue
  obtain ⟨n, hboth, hfuel, hfuel'⟩ := hstart.exists_fuel (Nat.le_refl 3)
  have hcaller : caller = passTime setup (!isUnderWay job.number ·) none
      ((first.launch setup job).workLeft + 1) (first.launch setup job) :=
    await_eq_pass_time setup hidle.1 job.number
  have hworker : worker = passTime setup done limit
      (((first.handedOver Pool.admit).begin setup job true
        |>.proceed setup job.number).workLeft + 1)
      ((first.handedOver Pool.admit).begin setup job true |>.proceed setup job.number) := by
    show wait _ _ _ _ = _
    unfold wait
    rw [h.settle_push setup job]
  rw [hcaller, hworker]
  exact hboth.pass_time setup h.queue hfuel hfuel' done limit

end AtRest

/-- The pipeline whose pool has let in one more job and has recorded its end. -/
def recorded (p : Pipeline σ) (outcome : Outcome) : Pipeline σ :=
  p.onPool fun pool => pool.admit.record outcome

/-- When the job is over, the two pipelines differ in the stats of the pool. -/
theorem Abreast.exists_outcome (h : Abreast first job 0 p q) :
    ∃ outcome, p.runs = [] ∧ p.pool = first.pool ∧
      p.outcomes = first.outcomes ++ [(job.number, outcome)] ∧ q = p.recorded outcome := by
  cases h with
  -- A job that runs has a call left.
  | running hsolo hjob hcalls => exact absurd hcalls (Nat.not_le_of_gt (Stage.calls_left_pos _))
  | @ended outcome hruns hpool houtcomes =>
      refine ⟨outcome, hruns, hpool, houtcomes, ?_⟩
      unfold recorded handedOver onPool
      rw [hruns]
      rfl

section Waiting

variable [SummaryStore σ] (setup : Setup) (h : AtRest first) (job : Job)
include h

/-- Who waits for the job waits until it is over. -/
theorem AtRest.await_push :
    Abreast first job 0 (first.execute setup job)
      ((first.onPool (·.push job)).await setup job.number) := by
  have hunder : (first.onPool (·.push job)).isUnderWay job.number = true := by
    unfold isUnderWay
    rw [h.queue_push job]
    simp
  have hawait : (first.onPool (·.push job)).await setup job.number =
      (first.onPool (·.push job)).wait setup (!isUnderWay job.number ·) none := if_pos hunder
  rw [hawait]
  rcases h.hand_over setup job (!isUnderWay job.number ·) none with
    hover | ⟨hstill, hdone | ⟨l, hl, -⟩⟩
  · exact hover
  · rw [hstill] at hdone
    cases hdone
  · cases hl

/-- So does who waits for longer than the caller has to. -/
theorem AtRest.sleep_push {ms : Nat} (hlong : (first.execute setup job).clock < first.clock + ms) :
    ∃ q, Abreast first job 0 (first.execute setup job) q ∧
      (first.onPool (·.push job)).sleep setup ms = q.turn (first.clock + ms) := by
  have hclock : first.clock ≤ (first.execute setup job).clock := by
    have hscheduled := is_scheduled_clock (σ := σ) setup
    have hproceed := hscheduled.proceed job.number (first.begin setup job false)
    rw [clock_begin] at hproceed
    exact Nat.le_trans hproceed (hscheduled.await _ job.number)
  refine ⟨_, ?_, if_neg (by omega)⟩
  rcases h.hand_over setup job (fun _ => false) (some (first.clock + ms)) with
    hover | ⟨-, hdone | ⟨l, hl, hle⟩⟩
  · exact hover
  · cases hdone
  · cases hl
    exact absurd hle (Nat.not_le_of_gt hlong)

/-- The job ends in the same way and leaves the same behind, whether the caller runs it or the
caller leaves it to a worker and then waits for its end, or just for long enough. -/
theorem AtRest.exists_outcome :
    ∃ outcome,
      (first.execute setup job).outcomes = first.outcomes ++ [(job.number, outcome)] ∧
      (first.execute setup job).runs = [] ∧ (first.execute setup job).pool = first.pool ∧
      (first.onPool (·.push job)).await setup job.number =
        (first.execute setup job).recorded outcome ∧
      ∀ ms, (first.execute setup job).clock < first.clock + ms →
        (first.onPool (·.push job)).sleep setup ms =
          ((first.execute setup job).recorded outcome).turn (first.clock + ms) := by
  obtain ⟨outcome, hruns, hpool, houtcomes, hawait⟩ := (h.await_push setup job).exists_outcome
  refine ⟨outcome, houtcomes, hruns, hpool, hawait, fun ms hlong => ?_⟩
  obtain ⟨q, hboth, hsleep⟩ := h.sleep_push setup job hlong
  obtain ⟨outcome', -, -, houtcomes', rfl⟩ := hboth.exists_outcome
  have hsame : outcome' = outcome := by
    rw [houtcomes] at houtcomes'
    simpa using houtcomes'.symm
  rw [hsleep, hsame]

end Waiting

end Pipeline

end Transcript
