import Transcript.Proofs.Pipeline.Steps

/-!
# Conservation of jobs

Whatever comes into the queue of a pool goes out again, and whatever workers begin to run comes to
an end: here the steps are added up (`Pipeline.Steps.accepted_perm`, `Pipeline.Steps.started_perm`).
The bounds on the queue and on the workers hold throughout, and they are what decides the answer to
a job that is offered (`Pipeline.Steps.enqueue_eq`).
-/

namespace Transcript.Pipeline

variable {σ : Type} {setup : Setup} {exclusive : Bool} {p p' : Pipeline σ} {l : Ledger} {e : Entry}

/-- As many workers are busy as there are jobs that workers run. -/
theorem busy_eq (p : Pipeline σ) : p.busy = p.workerJobs.length := by
  unfold busy workerJobs tickets
  rw [List.filter_map, List.length_map, List.length_map, List.countP_eq_length_filter]
  rfl

/-- A job is counted as dropped if there is no room for it. -/
theorem dropped_enqueue {pool : Pool} (hpool : p.pool = some pool) (job : Job) :
    (p.enqueue job).2.pool.map (·.stats.dropped) =
      some (pool.stats.dropped +
        if (p.enqueue job).1 = .dropped (.queueFull job.scope.text) then 1 else 0) := by
  obtain ⟨answer, p', henqueue⟩ : ∃ answer p', p.enqueue job = (answer, p') := ⟨_, _, rfl⟩
  rw [henqueue]
  rcases enqueue_cases henqueue with
    ⟨_, -, -, -, rfl, rfl⟩ | ⟨_, -, -, -, rfl, rfl⟩ | ⟨-, rfl, rfl⟩
  · simp [onPool, hpool, Pool.push]
  · simp [onPool, warn, hpool, Pool.drop]
  · simp [hpool]

namespace Step

variable {pool : Pool}

/-- The queue holds no more jobs than it has room for. -/
theorem room (h : Step setup exclusive p e p') (hpool : p.pool = some pool)
    (hroom : p.queue.length ≤ pool.capacity) : p'.queue.length ≤ pool.capacity := by
  have hlength := congrArg List.length h.queue_eq
  simp only [List.length_append] at hlength
  by_cases hnone : e.acceptedJobs = []
  · rw [hnone, List.length_nil] at hlength
    omega
  · obtain ⟨job, number, rfl⟩ : ∃ job number, e = .offered job (.enqueued number) := by
      unfold Entry.acceptedJobs at hnone
      split at hnone
      · exact ⟨_, _, rfl⟩
      · exact absurd rfl hnone
    obtain ⟨-, ⟨pool', hpool', -, hfree⟩, -⟩ := h.of_enqueued
    have hsame : pool' = pool := Option.some.inj (hpool'.symm.trans hpool)
    have hless : p.queue.length < pool.capacity := by
      unfold queue
      rw [hpool]
      exact of_decide_eq_true (hsame ▸ hfree)
    simp only [Entry.acceptedJobs, List.length_singleton] at hlength
    omega

/-- No more jobs run than there are workers. -/
theorem busy_le (h : Step setup exclusive p e p') (hdistinct : p.Distinct)
    (hpool : p.pool = some pool) (hbusy : p.busy ≤ pool.workers) : p'.busy ≤ pool.workers := by
  have hlength := (h.worker_jobs_perm hdistinct).length_eq
  simp only [List.length_append, ← busy_eq] at hlength
  by_cases hnone : e.startedJobs = []
  · rw [hnone, List.length_nil] at hlength
    omega
  · obtain ⟨job, rfl⟩ : ∃ job, e = .started job := by
      unfold Entry.startedJobs at hnone
      split at hnone
      · exact ⟨_, rfl⟩
      · exact absurd rfl hnone
    have hidle : p.busy < pool.workers := by
      cases h with
      | start hnext hopen hworker => exact (idle_of_next hpool hnext).2
    simp only [Entry.startedJobs, List.length_singleton] at hlength
    omega

/-- The workers go only when the pool is closing, and they leave no jobs behind. -/
theorem gone_of_parting (h : Step setup exclusive p e p') (hdistinct : p.Distinct)
    (hparting : e.isParting = true) : p.isClosing = true ∧ p'.queue = [] ∧ p'.workerJobs = [] := by
  rw [← List.length_eq_zero_iff, ← List.length_eq_zero_iff]
  have hqueue := congrArg List.length h.queue_eq
  have hworkers := (h.worker_jobs_perm hdistinct).length_eq
  simp only [List.length_append, List.length_map] at hqueue hworkers
  cases h with
  | dismiss hclosing hdrained =>
      have hidle : p.workerJobs.length = 0 := by
        rw [← busy_eq]
        unfold isDrained at hdrained
        rw [Bool.and_eq_true, beq_iff_eq] at hdrained
        exact hdrained.1
      rw [queue_of_drained p hdrained] at hqueue
      simp only [Entry.takenJobs, Entry.strandedJobs, Entry.acceptedJobs, Entry.startedJobs,
        List.length_nil] at hqueue hworkers
      exact ⟨hclosing, by omega, by omega⟩
  | expire hclosing =>
      simp only [Entry.takenJobs, Entry.strandedJobs, Entry.acceptedJobs, Entry.startedJobs,
        Entry.abortedJobs, List.length_nil] at hqueue hworkers
      exact ⟨hclosing, by omega, by omega⟩
  | _ => cases hparting

/-- Nothing comes to a closing pool. -/
theorem no_jobs_of_closing (h : Step setup exclusive p e p') (hclosing : p.isClosing = true) :
    e.acceptedJobs = [] ∧ e.startedJobs = [] := by
  constructor
  · cases e with
    | offered job answer =>
        cases answer with
        | enqueued number =>
            obtain ⟨-, ⟨pool, hpool, hopen, -⟩, -⟩ := h.of_enqueued
            simp [isClosing, hpool, hopen] at hclosing
        | _ => rfl
    | _ => rfl
  · cases h with
    | start hnext hopen hworker => simp [hopen] at hclosing
    | _ => rfl

end Step

namespace Steps

variable {store : σ} {pool : Option PoolConfig}

/-- A job that was let into the queue was taken out of it or left stranded, or it still waits. -/
theorem accepted_perm (h : Steps setup exclusive (fresh store pool) l p) :
    l.accepted.Perm (l.taken ++ l.stranded ++ p.queue) := by
  induction h with
  | start => cases pool <;> exact .refl _
  | next hsteps hstep ih =>
      refine List.perm_iff_count.2 fun job => ?_
      have hqueue := congrArg (List.count job) hstep.queue_eq
      have hbefore := ih.count_eq job
      simp only [Ledger.accepted, Ledger.taken, Ledger.stranded, List.flatMap_append,
        List.flatMap_singleton, List.count_append] at hqueue hbefore ⊢
      omega

/-- In time, jobs are taken in the order in which they were let in. -/
theorem accepted_eq (h : Steps setup exclusive (fresh store pool) l p) (htime : l.isInTime = true) :
    l.accepted = l.taken ++ p.queue := by
  induction h with
  | start => cases pool <;> rfl
  | next hsteps hstep ih =>
      rename_i l e p p'
      obtain ⟨htime, he⟩ : l.isInTime = true ∧ e.isExpiry = false := by
        simpa [Ledger.isInTime] using htime
      have hstranded : e.strandedJobs = [] := by
        cases e with
        | expired aborted stranded => cases he
        | _ => rfl
      have hqueue := hstep.queue_eq
      rw [hstranded, List.append_nil] at hqueue
      calc Ledger.accepted (l ++ [e]) = l.accepted ++ e.acceptedJobs := by simp
        _ = l.taken ++ (p.queue ++ e.acceptedJobs) := by rw [ih htime, List.append_assoc]
        _ = l.taken ++ (e.takenJobs ++ p'.queue) := by rw [hqueue]
        _ = Ledger.taken (l ++ [e]) ++ p'.queue := by simp

/-- A job that workers have begun to run is finished or aborted, or it still runs. -/
theorem started_perm (h : Steps setup exclusive (fresh store pool) l p) :
    l.started.Perm (l.finished.map Prod.fst ++ l.aborted ++ p.workerJobs) := by
  induction h with
  | start => exact .refl _
  | next hsteps hstep ih =>
      refine List.perm_iff_count.2 fun job => ?_
      have hdistinct := hsteps.distinct (distinct_fresh store pool)
      have hworkers := (hstep.worker_jobs_perm hdistinct).count_eq job
      have hbefore := ih.count_eq job
      simp only [Ledger.started, Ledger.finished, Ledger.aborted, List.flatMap_append,
        List.flatMap_singleton, List.map_append, List.count_append] at hworkers hbefore ⊢
      omega

/-- No job is let in twice. -/
theorem accepted_numbers (h : Steps setup exclusive (fresh store pool) l p) :
    (l.accepted.map Job.number).Nodup ∧ ∀ job ∈ l.accepted, job.number ≤ p.created := by
  induction h with
  | start => simp
  | next hsteps hstep ih =>
      rename_i l e p p'
      obtain ⟨hnodup, hle⟩ := ih
      obtain ⟨hcreated, hnumber⟩ := hstep.number_of_arrived
      have hnew := e.accepted_sublist.subset
      simp only [Ledger.accepted, List.flatMap_append, List.flatMap_singleton] at hnodup hle ⊢
      constructor
      · rw [List.map_append, List.nodup_append]
        refine ⟨hnodup, e.arrived_nodup.sublist (e.accepted_sublist.map _), fun m hm n hn => ?_⟩
        obtain ⟨old, hold, rfl⟩ := List.mem_map.1 hm
        obtain ⟨job, hjob, rfl⟩ := List.mem_map.1 hn
        exact Nat.ne_of_lt (Nat.lt_of_le_of_lt (hle old hold) (hnumber job (hnew hjob)).1)
      · intro job hjob
        rcases List.mem_append.1 hjob with hold | hjob
        · exact Nat.le_trans (hle job hold) hcreated
        · exact (hnumber job (hnew hjob)).2

/-! ## The state of the pool -/

variable {c : PoolConfig}

/-- The state of the pool is the one that the ledger tells. -/
theorem pool_eq_some (h : Steps setup exclusive (fresh store (some c)) l p) :
    p.pool = some (l.pool c) := h.pool_eq

/-- No more jobs wait than there is room for. -/
theorem room (h : Steps setup exclusive (fresh store (some c)) l p) :
    p.queue.length ≤ max c.queueSize 1 := by
  induction h with
  | start => exact Nat.zero_le _
  | next hsteps hstep ih =>
      have hroom := hstep.room hsteps.pool_eq_some
      rw [Ledger.capacity_pool] at hroom
      exact hroom ih

/-- No more workers are busy than there are. -/
theorem busy_le (h : Steps setup exclusive (fresh store (some c)) l p) :
    p.busy ≤ max c.workers 1 := by
  induction h with
  | start => exact Nat.zero_le _
  | next hsteps hstep ih =>
      have hbusy := hstep.busy_le (hsteps.distinct (distinct_fresh _ _)) hsteps.pool_eq_some
      rw [Ledger.workers_pool] at hbusy
      exact hbusy ih

/-- A pool is closing once it was closed. -/
theorem is_closing_iff (h : Steps setup exclusive (fresh store (some c)) l p) :
    p.isClosing = true ↔ .closed ∈ l := by
  unfold isClosing
  rw [h.pool_eq_some]
  exact l.closing_pool c

/-- In time, a job that was let in has ended or was abandoned, or it waits or is run by a worker. -/
theorem balance (h : Steps setup exclusive (fresh store (some c)) l p) (htime : l.isInTime = true) :
    (l.pool c).stats.enqueued =
      (l.pool c).stats.succeeded + (l.pool c).stats.failed + (l.pool c).stats.timedOut +
        (l.pool c).stats.abandoned + p.queue.length + p.busy := by
  have htells := l.tells_pool c
  have haccepted := congrArg List.length (h.accepted_eq htime)
  have htaken := l.taken_perm.length_eq
  have hstarted := h.started_perm.length_eq
  rw [(Ledger.aborted_eq_nil htime).1] at hstarted
  simp only [List.length_append, List.length_map, List.length_nil] at haccepted htaken hstarted
  rw [htells.enqueued, htells.ended, htells.abandoned, busy_eq]
  omega

/-- A job is started only before the pool is closed. -/
theorem not_closed_of_started (h : Steps setup exclusive (fresh store (some c)) l p)
    {before : Ledger} {job : Job} (hstarted : before ++ [.started job] <+: l) :
    .closed ∉ before := by
  obtain ⟨q', hsteps⟩ := h.exists_prefix hstarted
  obtain ⟨q, hbefore, hstep⟩ := hsteps.exists_last
  rw [← hbefore.is_closing_iff]
  cases hstep with
  | start hnext hopen hworker => simp [hopen]

/-- When the workers are gone, the pool has been closed, and no jobs wait or are run by workers. -/
theorem alive_or_gone (h : Steps setup exclusive (fresh store (some c)) l p) :
    (l.pool c).alive = true ∨ (p.isClosing = true ∧ p.queue = [] ∧ p.workerJobs = []) := by
  induction h with
  | start => exact .inl rfl
  | next hsteps hstep ih =>
      rename_i l e p p'
      have hdistinct := hsteps.distinct (distinct_fresh store (some c))
      have hstays : p.isClosing = true → p'.isClosing = true := by
        intro hclosing
        rw [hstep.is_closing, hclosing, Bool.true_or]
      rcases ih with halive | ⟨hclosing, hqueue, hworkers⟩
      · by_cases hparting : e.isParting = true
        · obtain ⟨hclosing, hgone⟩ := hstep.gone_of_parting hdistinct hparting
          exact .inr ⟨hstays hclosing, hgone⟩
        · rw [Ledger.pool_concat, Entry.alive_on_pool, halive]
          exact .inl (by simpa using hparting)
      · obtain ⟨haccepted, hstarted⟩ := hstep.no_jobs_of_closing hclosing
        have hqueue' := hstep.queue_eq
        have hworkers' := hstep.worker_jobs_perm hdistinct
        rw [hqueue, haccepted] at hqueue'
        rw [hworkers, hstarted] at hworkers'
        exact .inr ⟨hstays hclosing, (List.append_eq_nil_iff.1 hqueue').2,
          (List.append_eq_nil_iff.1 hworkers'.eq_nil).1⟩

/-- The answer to a job that is offered depends on whether the pool was closed, and else on whether
there is room. -/
theorem enqueue_eq (h : Steps setup exclusive (fresh store (some c)) l p) (job : Job) :
    (p.enqueue job).1 =
      if .closed ∈ l then .dropped .closed
      else if p.queue.length < max c.queueSize 1 then .enqueued job.number
      else .dropped (.queueFull job.scope.text) := by
  have hqueue : p.queue = (l.pool c).queue := by
    unfold queue
    rw [h.pool_eq_some]
    rfl
  unfold enqueue
  rw [h.pool_eq_some]
  dsimp only
  by_cases hclosed : .closed ∈ l
  · rw [if_pos ((l.closing_pool c).2 hclosed), if_pos hclosed]
  · rw [if_neg (mt (l.closing_pool c).1 hclosed), if_neg hclosed, hqueue]
    unfold Pool.hasRoom
    simp only [Ledger.capacity_pool, decide_eq_true_eq]
    split <;> rfl

/-- So each of the three answers has its own condition. -/
theorem answer_iff (h : Steps setup exclusive (fresh store (some c)) l p) (job : Job) :
    ((∃ number, (p.enqueue job).1 = .enqueued number) ↔
      .closed ∉ l ∧ p.queue.length < max c.queueSize 1) ∧
    ((p.enqueue job).1 = .dropped (.queueFull job.scope.text) ↔
      .closed ∉ l ∧ p.queue.length = max c.queueSize 1) ∧
    ((p.enqueue job).1 = .dropped .closed ↔ .closed ∈ l) := by
  have hroom := h.room
  rw [h.enqueue_eq job]
  by_cases hclosed : .closed ∈ l
  · simp [hclosed]
  · by_cases hfree : p.queue.length < max c.queueSize 1
    · simp [hclosed, hfree, Nat.ne_of_lt hfree]
    · have hfull : p.queue.length = max c.queueSize 1 := by omega
      simp [hclosed, hfull]

end Steps

end Transcript.Pipeline
