import Transcript.Proofs.Pipeline.Jobs
import Transcript.Proofs.Pipeline.Ledger

/-!
# The steps of a pipeline

`Pipeline.Step` is one step of a pipeline together with its entry in the ledger, and
`Pipeline.Steps` are some of them, one after the other. Nothing is said about the order: jobs are
offered, sessions removed and runs ended whenever it may be, and workers take a job at any time
after one is there.

What a step does to the jobs that wait or run is told by its entry (`Pipeline.Step.jobs_perm`), and
so is what it does to the number of jobs that are counted for a scope
(`Pipeline.Step.in_flight_eq`).
-/

namespace Transcript

namespace Pipeline

variable {σ : Type}

/-- One step of a pipeline, with the entry about it, where the jobs that are offered to the pool are
to be alone in their scope if `exclusive` is set. -/
inductive Step (setup : Setup) (exclusive : Bool) : Pipeline σ → Entry → Pipeline σ → Prop where
  | other {p p' : Pipeline σ} (hsame : SameJobs p p') : Step setup exclusive p .other p'
  | remove (p : Pipeline σ) (key : SessionKey) :
      Step setup exclusive p (.removed key)
        { p with log := p.log.remove key, counters := p.counters.forget key }
  | offer {p made p' : Pipeline σ} {scope : Scope} {tracked : Bool} {job : Job}
      {answer : EnqueueOutcome}
      (hadmits : tracked = true → p.counters.admits scope exclusive = true)
      (hmade : p.makeJob setup scope tracked exclusive = (job, made))
      (hanswer : made.enqueue job = (answer, p')) : Step setup exclusive p (.offered job answer) p'
  | force {p made : Pipeline σ} {scope : Scope} {tracked : Bool} {run : Run}
      (hmade : p.makeJob setup scope tracked false = (run.job, made))
      (hcaller : run.byWorker = false) :
      Step setup exclusive p (.forced run.job) (made.addRun run)
  | start {p : Pipeline σ} {run : Run} (hnext : p.nextJob? = some run.job)
      (hopen : p.isClosing = false) (hworker : run.byWorker = true) :
      Step setup exclusive p (.started run.job) (p.popJob.addRun run)
  | abandon {p : Pipeline σ} {job : Job} (hnext : p.nextJob? = some job)
      (hclosing : p.isClosing = true) : Step setup exclusive p (.abandoned job) (p.take setup job)
  | finish {p : Pipeline σ} {run : Run} (hrun : run ∈ p.runs) (outcome : Outcome) :
      Step setup exclusive p (.ended run.job run.byWorker outcome)
        (p.finish setup run.job run.byWorker outcome)
  | close (p : Pipeline σ) : Step setup exclusive p .closed p.close
  | dismiss {p : Pipeline σ} (hclosing : p.isClosing = true) (hdrained : p.isDrained = true) :
      Step setup exclusive p .dismissed p.dismiss
  | expire {p : Pipeline σ} (hclosing : p.isClosing = true) :
      Step setup exclusive p (.expired p.workerJobs p.queue) p.abort

/-- Some steps of a pipeline, one after the other, with the ledger about them. -/
inductive Steps (setup : Setup) (exclusive : Bool) (first : Pipeline σ) :
    Ledger → Pipeline σ → Prop where
  | start : Steps setup exclusive first [] first
  | next {l : Ledger} {e : Entry} {p p' : Pipeline σ} (hsteps : Steps setup exclusive first l p)
      (hstep : Step setup exclusive p e p') : Steps setup exclusive first (l ++ [e]) p'

/-! ## What a step does -/

namespace Step

variable {setup : Setup} {exclusive : Bool} {p p' : Pipeline σ} {e : Entry}

/-- Jobs come into the queue at its end, and go out at its front. -/
theorem queue_eq (h : Step setup exclusive p e p') :
    e.takenJobs ++ e.strandedJobs ++ p'.queue = p.queue ++ e.acceptedJobs := by
  cases h with
  | other hsame => simp [queue_congr hsame.pool]
  | remove key => simp [queue]
  | offer hadmits hmade hanswer =>
      obtain ⟨-, -, hpool, -⟩ := make_job_inv hmade
      rename_i made scope tracked job answer
      rw [← queue_congr hpool]
      rcases enqueue_cases hanswer with
        ⟨pool, hpool, -, -, rfl, rfl⟩ | ⟨pool, -, -, -, rfl, rfl⟩ | ⟨-, rfl, rfl⟩
      · exact queue_push _ _ hpool
      · simp only [queue_congr (pool_release _ _), Entry.acceptedJobs, List.append_nil]
        exact queue_on_pool made fun _ => rfl
      · simp [queue_congr (pool_release _ _)]
  | force hmade hcaller =>
      obtain ⟨-, -, hpool, -⟩ := make_job_inv hmade
      simp only [Entry.acceptedJobs, List.append_nil]
      exact queue_congr hpool
  | start hnext hopen hworker =>
      simp only [queue_of_next _ hnext, Entry.acceptedJobs, List.append_nil]
      rfl
  | abandon hnext hclosing =>
      rw [take_of_closing setup p _ hclosing, queue_congr (pool_release _ _)]
      simp only [queue_of_next _ hnext, Entry.acceptedJobs, List.append_nil]
      exact congrArg (_ :: ·) (queue_on_pool p.popJob fun _ => rfl)
  | finish hrun outcome => simp
  | close =>
      simp only [Entry.acceptedJobs, List.append_nil]
      exact queue_on_pool p fun _ => rfl
  | dismiss hclosing hdrained =>
      simp only [Entry.acceptedJobs, List.append_nil, queue_of_drained _ hdrained]
      exact queue_dissolve p
  | expire hclosing =>
      have hgone : p.abort.queue = [] := queue_dissolve _
      simp [hgone]

/-- The runs that begin come behind the others, and those that end or are aborted are left out. -/
theorem tickets_perm (h : Step setup exclusive p e p') (hdistinct : p.Distinct) :
    (p'.tickets ++ e.stopped).Perm (p.tickets ++ e.begun) := by
  cases h with
  | other hsame => simp [hsame.tickets]
  | remove key => simp [tickets]
  | offer hadmits hmade hanswer =>
      obtain ⟨-, -, -, hruns⟩ := make_job_inv hmade
      rw [tickets_congr ((runs_enqueue hanswer).trans hruns)]
      simp
  | force hmade hcaller =>
      obtain ⟨-, -, -, hruns⟩ := make_job_inv hmade
      simp [tickets, addRun, hruns, hcaller]
  | start hnext hopen hworker => simp [tickets, addRun, popJob, hworker]
  | abandon hnext hclosing =>
      rw [take_of_closing setup p _ hclosing, tickets_congr (runs_release _ _)]
      exact .refl _
  | finish hrun outcome =>
      rename_i run
      have hothers := (perm_cons_filter hdistinct.runs_nodup hrun).map fun r => (r.job, r.byWorker)
      rw [finish_eq]
      simp only [Entry.stopped, Entry.begun, List.append_nil]
      exact (List.perm_append_singleton _ _).trans hothers.symm
  | close =>
      simp only [Entry.stopped, Entry.begun, List.append_nil]
      exact .refl _
  | dismiss hclosing hdrained =>
      simp only [Entry.stopped, Entry.begun, List.append_nil]
      exact .refl _
  | expire hclosing =>
      -- Those that are aborted are the runs of workers, and the others are kept.
      have hworkers : p.workerJobs.map (·, true) = p.tickets.filter Prod.snd := by
        unfold workerJobs
        rw [List.map_map, List.map_congr_left (g := id), List.map_id]
        rintro ⟨job, byWorker⟩ hticket
        obtain ⟨-, rfl⟩ := List.mem_filter.1 hticket
        rfl
      have hothers : p.abort.tickets = p.tickets.filter (!·.2) := by
        unfold abort tickets
        rw [List.filter_map]
        rfl
      simp only [Entry.stopped, Entry.begun, List.append_nil]
      rw [hworkers, hothers]
      exact List.perm_append_comm.trans (List.filter_append_perm Prod.snd p.tickets)

/-- What a step does to the jobs that wait or run is told by its entry. -/
theorem jobs_perm (h : Step setup exclusive p e p') (hdistinct : p.Distinct) :
    (p'.jobs ++ e.released ++ e.lost).Perm (p.jobs ++ e.arrived) := by
  refine List.perm_iff_count.2 fun job => ?_
  have hqueue := congrArg (List.count job) h.queue_eq
  have hruns := ((h.tickets_perm hdistinct).map Prod.fst).count_eq job
  have hbalance := e.balance.count_eq job
  unfold jobs
  simp only [List.map_append, List.count_append] at hqueue hruns hbalance ⊢
  omega

/-- Workers run the jobs that are started, until they are finished or aborted. -/
theorem worker_jobs_perm (h : Step setup exclusive p e p') (hdistinct : p.Distinct) :
    (p'.workerJobs ++ (e.finishedJobs.map Prod.fst ++ e.abortedJobs)).Perm
      (p.workerJobs ++ e.startedJobs) := by
  have hperm := ((h.tickets_perm hdistinct).filter Prod.snd).map Prod.fst
  simp only [List.filter_append, List.map_append] at hperm
  rwa [e.stopped_by_worker, e.begun_by_worker] at hperm

/-- What a step does to the number of jobs that are counted for a scope, while its session stays. -/
theorem in_flight_eq (h : Step setup exclusive p e p') {scope : Scope}
    (hkept : e ≠ .removed scope.session) :
    p'.inFlight scope = p.inFlight scope + e.arrived.countP (·.countsFor scope) -
      e.released.countP (·.countsFor scope) := by
  cases h with
  | other hsame => exact hsame.inFlight scope
  | remove key =>
      have hne : scope.session ≠ key := fun heq => hkept (heq ▸ rfl)
      exact (TriggerCounters.in_flight_forget _ _ _).trans (if_neg hne)
  | offer hadmits hmade hanswer =>
      rename_i made _ _ job answer
      have hcount := in_flight_make_job setup p job _ hmade hadmits scope
      rcases enqueue_cases hanswer with
        ⟨pool, -, -, -, rfl, rfl⟩ | ⟨pool, -, -, -, rfl, rfl⟩ | ⟨-, rfl, rfl⟩
      · simp only [Entry.arrived, Entry.released, List.countP_singleton,
          List.countP_nil, Nat.sub_zero]
        exact hcount
      · -- A job that is dropped was counted before, so one is taken off that was added.
        rw [in_flight_release]
        show made.inFlight scope - _ = _
        simp [hcount]
      · rw [in_flight_release, hcount]
        simp
  | force hmade hcaller =>
      have hcount := in_flight_make_job setup p _ _ hmade
        (fun _ => (TriggerCounters.admits_iff _ _ _).2 (.inl rfl)) scope
      simp only [Entry.arrived, Entry.released, List.countP_singleton,
        List.countP_nil, Nat.sub_zero]
      exact hcount
  | start hnext hopen hworker => rfl
  | abandon hnext hclosing =>
      rw [take_of_closing setup p _ hclosing, in_flight_release]
      simp only [Entry.arrived, Entry.released, List.countP_singleton,
        List.countP_nil, Nat.add_zero]
      rfl
  | finish hrun outcome =>
      rw [in_flight_finish]
      simp only [Entry.arrived, Entry.released, List.countP_singleton,
        List.countP_nil, Nat.add_zero]
  | close => rfl
  | dismiss hclosing hdrained => rfl
  | expire hclosing => rfl

/-- When a session is removed, no jobs are counted for it any more. -/
theorem in_flight_removed {scope : Scope} (h : Step setup exclusive p (.removed scope.session) p') :
    p'.inFlight scope = 0 := by
  cases h
  exact (TriggerCounters.in_flight_forget _ _ _).trans (if_pos rfl)

/-- A job gets a number that no job had before. -/
theorem number_of_arrived (h : Step setup exclusive p e p') :
    p.created ≤ p'.created ∧
      ∀ job ∈ e.arrived, p.created < job.number ∧ job.number ≤ p'.created := by
  cases h with
  | other hsame => exact ⟨Nat.le_of_eq hsame.created.symm, by simp⟩
  | offer hadmits hmade hanswer =>
      rename_i made _ _ job _
      obtain ⟨⟨hnumber, -, -⟩, hcreated, -, -⟩ := make_job_inv hmade
      rw [created_enqueue hanswer, hcreated]
      refine ⟨Nat.le_succ _, fun arrived harrived => ?_⟩
      rcases Entry.cases_of_arrived harrived with ⟨number, hoffered⟩ | hforced
      · cases hoffered
        rw [hnumber]
        exact ⟨Nat.lt_succ_self _, Nat.le_refl _⟩
      · cases hforced
  | force hmade hcaller =>
      obtain ⟨⟨hnumber, -, -⟩, hcreated, -, -⟩ := make_job_inv hmade
      simp [addRun, hnumber, hcreated]
  | abandon hnext hclosing =>
      rw [take_of_closing setup p _ hclosing, created_release]
      exact ⟨Nat.le_refl _, by simp⟩
  | finish hrun outcome =>
      rw [finish_eq]
      exact ⟨Nat.le_refl _, by simp⟩
  | _ => exact ⟨Nat.le_refl _, by simp⟩

/-- So the numbers stay different. -/
theorem distinct (h : Step setup exclusive p e p') (hdistinct : p.Distinct) : p'.Distinct := by
  obtain ⟨hcreated, hnumber⟩ := h.number_of_arrived
  have hperm := h.jobs_perm hdistinct
  rw [List.append_assoc] at hperm
  have hnodup : ((p.jobs ++ e.arrived).map Job.number).Nodup := by
    rw [List.map_append, List.nodup_append]
    refine ⟨hdistinct.nodup, e.arrived_nodup, fun m hm n hn => ?_⟩
    obtain ⟨job, hjob, rfl⟩ := List.mem_map.1 hm
    obtain ⟨arrived, harrived, rfl⟩ := List.mem_map.1 hn
    exact Nat.ne_of_lt (Nat.lt_of_le_of_lt (hdistinct.le job hjob) (hnumber arrived harrived).1)
  constructor
  · have hnodup' := (hperm.map Job.number).nodup_iff.2 hnodup
    rw [List.map_append] at hnodup'
    exact (List.nodup_append.1 hnodup').1
  · intro job hjob
    rcases List.mem_append.1 (hperm.subset (List.mem_append_left _ hjob)) with hold | hnew
    · exact Nat.le_trans (hdistinct.le job hold) hcreated
    · exact (hnumber job hnew).2

/-- A pool that lets a job in is not closing and has room for it. If the job is to be alone, no job
of its scope is counted. -/
theorem of_enqueued {job : Job} {number : Nat}
    (h : Step setup exclusive p (.offered job (.enqueued number)) p') :
    number = job.number ∧
      (∃ pool, p.pool = some pool ∧ pool.closing = false ∧ pool.hasRoom = true) ∧
      (job.tracked = true → exclusive = true → p.inFlight job.scope = 0) := by
  cases h with
  | offer hadmits hmade hanswer =>
      obtain ⟨⟨-, rfl, rfl⟩, -, hpool, -⟩ := make_job_inv hmade
      rcases enqueue_cases hanswer with
        ⟨pool, hmade, hopen, hroom, hnumber, -⟩ | ⟨_, -, -, -, hdropped, -⟩ | ⟨-, hdropped, -⟩
      · cases hnumber
        refine ⟨rfl, ⟨pool, hpool ▸ hmade, hopen, hroom⟩, fun htracked hexclusive => ?_⟩
        have hfree := (TriggerCounters.admits_iff _ _ _).1 (hadmits htracked)
        exact hfree.resolve_left (by simp [hexclusive])
      · cases hdropped
      · cases hdropped

/-- What a step does to the pool is told by its entry. -/
theorem pool_eq (h : Step setup exclusive p e p') : p'.pool = p.pool.map e.onPool := by
  cases h with
  | other hsame => rw [hsame.pool]; cases p.pool <;> rfl
  | offer hadmits hmade hanswer =>
      obtain ⟨-, -, hpool, -⟩ := make_job_inv hmade
      rw [← hpool]
      rcases enqueue_cases hanswer with
        ⟨pool, -, -, -, rfl, rfl⟩ | ⟨pool, -, -, -, rfl, rfl⟩ | ⟨-, rfl, rfl⟩
      · rfl
      · rw [pool_release]
        rfl
      · rw [pool_release]
        exact (congrFun Option.map_id _).symm
  | force hmade hcaller =>
      obtain ⟨-, -, hpool, -⟩ := make_job_inv hmade
      exact hpool.trans (congrFun Option.map_id _).symm
  | abandon hnext hclosing =>
      rw [take_of_closing setup p _ hclosing, pool_release]
      exact Option.map_map _ _ _
  | finish hrun outcome =>
      rename_i run
      rw [finish_eq]
      cases run.byWorker with
      | true => rfl
      | false => exact (congrFun Option.map_id _).symm
  | remove key => exact (congrFun Option.map_id _).symm
  | start | close | dismiss | expire => rfl

/-- A pool that is closing stays so. -/
theorem is_closing (h : Step setup exclusive p e p') :
    p'.isClosing = (p.isClosing || (e = .closed && p.pool.isSome)) := by
  unfold isClosing
  rw [h.pool_eq]
  cases p.pool with
  | none => simp
  | some pool => simp [Entry.closing_on_pool]

end Step

/-! ## What some steps do -/

namespace Steps

variable {setup : Setup} {exclusive : Bool} {first p p' : Pipeline σ} {l m : Ledger} {e : Entry}

/-- A step is a run of one step. -/
theorem single (h : Step setup exclusive p e p') : Steps setup exclusive p [e] p' := .next .start h

/-- Two runs make one, and the ledgers are joined. -/
theorem trans (h : Steps setup exclusive first l p) (h' : Steps setup exclusive p m p') :
    Steps setup exclusive first (l ++ m) p' := by
  induction h' with
  | start => rwa [List.append_nil]
  | next hsteps hstep ih =>
      rw [← List.append_assoc]
      exact .next ih hstep

/-- The last step can be taken back. -/
theorem exists_last (h : Steps setup exclusive first (l ++ [e]) p') :
    ∃ p, Steps setup exclusive first l p ∧ Step setup exclusive p e p' := by
  generalize hm : l ++ [e] = m at h
  cases h with
  | start => simp at hm
  | next hsteps hstep =>
      obtain ⟨rfl, hlast⟩ := List.append_inj' hm rfl
      cases hlast
      exact ⟨_, hsteps, hstep⟩

/-- So can some of the last steps. -/
theorem exists_split (h : Steps setup exclusive first (l ++ m) p) :
    ∃ q, Steps setup exclusive first l q ∧ Steps setup exclusive q m p := by
  induction m using List.reverseRecOn generalizing p with
  | nil =>
      rw [List.append_nil] at h
      exact ⟨p, h, .start⟩
  | append_singleton m e ih =>
      rw [← List.append_assoc] at h
      obtain ⟨p', hsteps, hstep⟩ := h.exists_last
      obtain ⟨q, hbefore, hafter⟩ := ih hsteps
      exact ⟨q, hbefore, .next hafter hstep⟩

/-- What a ledger begins with can be told of some steps as well. -/
theorem exists_prefix (h : Steps setup exclusive first l p) (hm : m <+: l) :
    ∃ q, Steps setup exclusive first m q := by
  obtain ⟨rest, rfl⟩ := hm
  obtain ⟨q, hsteps, -⟩ := h.exists_split
  exact ⟨q, hsteps⟩

/-- No job comes to be there twice. -/
theorem distinct (h : Steps setup exclusive first l p) (hfirst : first.Distinct) : p.Distinct := by
  induction h with
  | start => exact hfirst
  | next hsteps hstep ih => exact hstep.distinct ih

/-- What has become of the jobs is told by the ledger. -/
theorem jobs_perm (h : Steps setup exclusive first l p) (hfirst : first.Distinct) :
    (p.jobs ++ l.released ++ l.lost).Perm (first.jobs ++ l.arrived) := by
  induction h with
  | start => simp
  | next hsteps hstep ih =>
      have hperm := hstep.jobs_perm (hsteps.distinct hfirst)
      refine List.perm_iff_count.2 fun job => ?_
      have hbefore := ih.count_eq job
      have hafter := hperm.count_eq job
      simp only [Ledger.arrived, Ledger.released, Ledger.lost, List.flatMap_append,
        List.flatMap_singleton, List.count_append] at hbefore hafter ⊢
      omega

/-- The pool is told by the ledger. -/
theorem pool_eq {store : σ} {pool : Option PoolConfig}
    (h : Steps setup exclusive (fresh store pool) l p) : p.pool = pool.map l.pool := by
  induction h with
  | start => rfl
  | next hsteps hstep ih =>
      rename_i l e p p'
      rw [hstep.pool_eq, ih, Option.map_map]
      exact congrArg (pool.map ·) (funext fun c => (l.pool_concat e c).symm)

/-- A pool that is closing stays so. -/
theorem is_closing (h : Steps setup exclusive first l p) (hfirst : first.isClosing = true) :
    p.isClosing = true := by
  induction h with
  | start => exact hfirst
  | next hsteps hstep ih => rw [hstep.is_closing, ih, Bool.true_or]

/-- The grace period is over only after the pool was closed. -/
theorem in_time_or_closing {store : σ} {pool : Option PoolConfig}
    (h : Steps setup exclusive (fresh store pool) l p) :
    l.isInTime = true ∨ p.isClosing = true := by
  induction h with
  | start => exact .inl rfl
  | next hsteps hstep ih =>
      rw [hstep.is_closing, Bool.or_eq_true]
      rcases ih with htime | hclosing
      · cases hstep with
        | expire hclosing => exact .inr (.inl hclosing)
        | _ => exact .inl (by simpa [Ledger.isInTime, Entry.isExpiry] using htime)
      · exact .inr (.inl hclosing)

end Steps

end Pipeline

end Transcript
