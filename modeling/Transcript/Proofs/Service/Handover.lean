import Transcript.Proofs.Pipeline.Handover
import Transcript.Proofs.Service.Conservation
import Transcript.Proofs.Service.Scheduling

/-!
# Summaries at once and in the background

A caller may have a summary made at once, or he may ask for a job and leave it to a worker. If
nothing else is under way that is all the same (`Service.background_agrees_with_forced`): the model
is asked the same, the job ends in the same way, and the events, the summaries and all that is known
about the scopes are the same afterwards. Only the pool knows whether it has had a job.
-/

namespace Transcript

namespace Pipeline

variable {σ : Type}

/-! ## The numbers of outcomes -/

/-- The numbers of jobs only go up. -/
theorem Steps.created_le {setup : Setup} {exclusive : Bool} {p p' : Pipeline σ} {l : Ledger}
    (h : Steps setup exclusive p l p') : p.created ≤ p'.created := by
  induction h with
  | start => exact Nat.le_refl _
  | next _ hstep ih => exact Nat.le_trans ih hstep.number_of_arrived.1

/-- All outcomes that are reported of a turn of a job are its own. -/
theorem number_of_report {setup : Setup} {job : Job} {p p' : Pipeline σ} :
    ∀ o ∈ (p.report setup job p').filterMap Happening.outcome?, o.1 = job.number := by
  intro o ho
  obtain ⟨h, hmem, houtcome⟩ := List.mem_filterMap.1 ho
  rcases List.mem_append.1 hmem with hasked | hended
  · obtain ⟨prompt, -, rfl⟩ := List.mem_map.1 hasked
    cases houtcome
  · obtain ⟨outcome, -, rfl⟩ := List.mem_map.1 hended
    cases houtcome
    rfl

/-- No job is made when another begins. -/
theorem created_begin (setup : Setup) (p : Pipeline σ) (job : Job) (byWorker : Bool) :
    (p.begin setup job byWorker).created = p.created := by
  unfold begin
  split
  · rw [finish_eq]
  · rfl

variable [SummaryStore σ]

/-- A job whose turn it is runs or waits. -/
theorem JobTurn.mem_jobs {setup : Setup} {p p' : Pipeline σ} {job : Job}
    (h : JobTurn setup p job p') : job ∈ p.jobs := by
  cases h with
  | take hnext => exact List.mem_append_left _ (by simp [queue_of_next _ hnext])
  | loaded hrun => exact mem_jobs_of_run hrun
  | answered hrun => exact mem_jobs_of_run hrun
  | stored hrun => exact mem_jobs_of_run hrun

end Pipeline

namespace Service

variable {σ : Type} [SummaryStore σ] {first s s' : Service σ} {history news : List Happening}

/-- Only jobs that were made have outcomes. -/
theorem Step.outcome_number_le (h : Step s news s') (hdistinct : s.pipeline.Distinct)
    (hle : ∀ o ∈ s.pipeline.outcomes, o.1 ≤ s.pipeline.created) :
    ∀ o ∈ s'.pipeline.outcomes, o.1 ≤ s'.pipeline.created := by
  obtain ⟨l, hsteps, -⟩ := h.posts hdistinct
  have hcreated := hsteps.created_le
  have hnews : ∀ o ∈ news.filterMap Happening.outcome?, o.1 ≤ s'.pipeline.created := by
    cases h with
    | enqueue scope => split <;> simp [Happening.outcome?]
    | @force made scope job hmodel hmade =>
        have hnumber : job.number = made.pipeline.created := by
          cases hmade
          rfl
        intro o ho
        rw [Pipeline.number_of_report o ho, hnumber]
        exact Nat.le_of_eq (Pipeline.created_begin s.setup made.pipeline job false).symm
    | turn hturn =>
        intro o ho
        rw [Pipeline.number_of_report o ho]
        exact Nat.le_trans (hdistinct.le _ hturn.mem_jobs) hcreated
    | _ => simp [Happening.outcome?]
  rw [h.records.2]
  intro o ho
  rcases List.mem_append.1 ho with hold | hnew
  · exact Nat.le_trans (hle o hold) hcreated
  · exact hnews o hnew

/-- So the next job has no outcome yet. -/
theorem Course.next_job_has_no_outcome (h : Course first history s)
    (hdistinct : first.pipeline.Distinct) (hnone : first.pipeline.outcomes = []) :
    s.pipeline.outcome? (s.pipeline.created + 1) = none := by
  have hle : ∀ o ∈ s.pipeline.outcomes, o.1 ≤ s.pipeline.created := by
    induction h with
    | start => simp [hnone]
    | next hcourse hstep ih =>
        obtain ⟨l, hsteps, -⟩ := hcourse.exists_ledger hdistinct
        exact hstep.outcome_number_le (hsteps.distinct hdistinct) ih
  refine List.lookup_eq_none_iff.2 fun o ho => ?_
  have hlt := hle o ho
  rw [bne_iff_ne]
  omega

/-! ## One job, made at once or in the background -/

/-- The service after the caller has waited for the end of a job. -/
def await (s : Service σ) (number : Nat) : Service σ := s.onPipeline (·.await s.setup number)

omit [SummaryStore σ] in
/-- The service whose pool has let in one more job and has recorded its end. -/
def recorded (s : Service σ) (outcome : Outcome) : Service σ := s.onPipeline (·.recorded outcome)

/-- Where nothing is under way the pool has room for a job. -/
theorem Course.exists_room {parts : ServiceParts σ} (hbuild : parts.build = .ok first)
    (hcourse : Course first history s) (hrest : s.pipeline.AtRest) :
    ∃ pool, s.pipeline.pool = some pool ∧ pool.closing = false ∧ pool.hasRoom = true := by
  obtain ⟨pool, hpool, hqueue⟩ := hrest.exists_pool
  obtain ⟨hfirst, -, -⟩ := ServiceParts.build_pipeline hbuild
  have hdistinct : first.pipeline.Distinct := hfirst ▸ Pipeline.distinct_fresh _ _
  obtain ⟨l, hsteps, -⟩ := hcourse.exists_ledger hdistinct
  rw [hfirst] at hsteps
  have hledger := hsteps.pool_eq
  rw [hpool] at hledger
  obtain ⟨c, -, rfl⟩ := Option.map_eq_some_iff.1 hledger.symm
  refine ⟨l.pool c, hpool, ?_, ?_⟩
  · have hopen := hrest.isOpen
    unfold Pipeline.isClosing at hopen
    rwa [hpool] at hopen
  · unfold Pool.hasRoom
    rw [hqueue, Ledger.capacity_pool]
    exact decide_eq_true (Nat.lt_of_lt_of_le Nat.zero_lt_one (Nat.le_max_right _ _))

section Entrances

variable {scope : Scope} {job : Job} {made : Service σ}

omit [SummaryStore σ] in
/-- A job is let in where nothing else is under way, and then it is made as if it were forced. -/
theorem enqueue_at_rest (hmade : s.trackedJob scope false = (job, made)) {pool : Pool}
    (hpool : s.pipeline.pool = some pool) (hopen : pool.closing = false)
    (hroom : pool.hasRoom = true) (henabled : s.config.summary.enabled = true)
    (hevents : s.pipeline.log.hasEvents scope.session scope.filter = true)
    (hidle : (s.state scope).inFlight = 0) :
    s.enqueue scope = (.enqueued job.number, made.onPipeline (·.onPool (·.push job))) := by
  have hadmits (exclusive : Bool) : s.pipeline.counters.admits scope exclusive = true :=
    (TriggerCounters.admits_iff _ _ _).2 (.inr hidle)
  have htracked (exclusive : Bool) : s.trackedJob scope exclusive = (job, made) := by
    rw [← hmade]
    unfold trackedJob
    rw [TriggerCounters.begin_job_eq _ _ (hadmits exclusive)]
  have hlet : made.pipeline.enqueue job =
      (.enqueued job.number, made.pipeline.onPool (·.push job)) := by
    have hmade' : made.pipeline.pool = some pool := by
      rw [← hpool]
      cases hmade
      rfl
    unfold Pipeline.enqueue
    rw [hmade']
    dsimp only
    rw [hopen, hroom]
    rfl
  unfold enqueue hasModel
  dsimp only
  rw [henabled, hpool, hevents, hadmits, htracked, hlet]
  rfl

/-- A forced job is run by the caller. -/
theorem summarize_forced (hmade : s.trackedJob scope false = (job, made))
    (hmodel : s.hasModel = true) :
    s.summarize scope true =
      (((made.pipeline.execute made.setup job).outcomeOf job.number).toExcept,
        made.onPipeline (·.execute made.setup job)) := by
  unfold summarize onPipeline
  simp only [hmodel, hmade, Bool.not_true, Bool.false_eq_true, if_false, if_true]

end Entrances

/-- Whatever has happened to a service before: if summaries are on, nothing is under way, a worker
is idle and a scope has events and no job in flight, then it does not matter whether the caller has
the summary made at once or lets a worker make it in the background. The outcome is the same, and so
is all the rest, but for the stats of the pool. This is so when the caller waits for the job in the
background to be over, and also when he just sleeps for longer than the job takes. -/
theorem background_agrees_with_forced {parts : ServiceParts σ} (hbuild : parts.build = .ok first)
    (hcourse : Course first history s) (henabled : s.config.summary.enabled = true)
    (hrest : s.pipeline.AtRest) {scope : Scope}
    (hevents : s.pipeline.log.hasEvents scope.session scope.filter = true)
    (hidle : (s.state scope).inFlight = 0) :
    ∃ number outcome,
      let forced := (s.summarize scope true).2
      let offered := (s.enqueue scope).2
      (s.summarize scope true).1 = outcome.toExcept ∧
      (s.enqueue scope).1 = .enqueued number ∧
      forced.pipeline.outcomes = s.pipeline.outcomes ++ [(number, outcome)] ∧
      forced.pipeline.runs = [] ∧ forced.pipeline.pool = s.pipeline.pool ∧
      offered.await number = forced.recorded outcome ∧
      ∀ ms, forced.pipeline.clock < s.pipeline.clock + ms →
        offered.sleep ms =
          (forced.recorded outcome).onPipeline (·.turn (s.pipeline.clock + ms)) := by
  obtain ⟨pool, hpool, hopen, hroom⟩ := hcourse.exists_room hbuild hrest
  obtain ⟨hfirst, -, -⟩ := ServiceParts.build_pipeline hbuild
  have hnew : s.pipeline.outcome? (s.pipeline.created + 1) = none :=
    hcourse.next_job_has_no_outcome (hfirst ▸ Pipeline.distinct_fresh _ _) (by rw [hfirst]; rfl)
  have hmodel : s.hasModel = true := by
    unfold hasModel
    rw [hpool]
    rfl
  generalize hmade : s.trackedJob scope false = result
  obtain ⟨job, made⟩ := result
  -- Both ways start with the same job, and making it changes only its number and the counters.
  have hrest' : made.pipeline.AtRest := by
    cases hmade
    exact ⟨hrest.runs, hrest.queue, hrest.worker, hrest.isOpen⟩
  have hpool' : made.pipeline.pool = s.pipeline.pool := by
    cases hmade
    rfl
  have hnumber : job.number = s.pipeline.created + 1 := by
    cases hmade
    rfl
  obtain ⟨hcalm, hclock, -⟩ := calm_tracked_job hmade
  obtain ⟨outcome, houtcomes, hruns, hsame, hawait, hsleep⟩ := hrest'.exists_outcome made.setup job
  rw [hcalm.outcomes] at houtcomes
  -- The number is a new one, so the outcome that is found for it is the one that has just come.
  have houtcome : (made.pipeline.execute made.setup job).outcomeOf job.number = outcome := by
    have hlookup : s.pipeline.outcomes.lookup job.number = none := hnumber ▸ hnew
    unfold Pipeline.outcomeOf Pipeline.outcome?
    rw [houtcomes, List.lookup_append, hlookup, Option.none_or, List.lookup_cons_self]
    rfl
  refine ⟨job.number, outcome, ?_⟩
  rw [summarize_forced hmade hmodel, enqueue_at_rest hmade hpool hopen hroom henabled hevents hidle,
    houtcome, ← hclock]
  refine ⟨rfl, rfl, houtcomes, hruns, hsame.trans hpool', ?_, fun ms hlong => ?_⟩
  · exact congrArg (fun p => { made with pipeline := p }) hawait
  · exact congrArg (fun p => { made with pipeline := p }) (hsleep ms hlong)

/-- The model takes three seconds. The caller waits for them, or he leaves the job to the worker and
sleeps for longer than that. -/
theorem background_agrees_with_forced_asleep :
    let scope := Scope.whole .desk
    let s := (taking 3000).performAll [.append .desk (.saying "x")]
    let forced := (s.summarize scope true).2
    let outcome := Outcome.succeeded (some ⟨"S", 1, ⟨3, 0⟩, {}⟩)
    (∃ history, Course (taking 3000) history s) ∧ s.config.summary.enabled = true ∧
      s.pipeline.AtRest ∧ s.pipeline.log.hasEvents scope.session scope.filter = true ∧
      (s.state scope).inFlight = 0 ∧ (s.summarize scope true).1 = outcome.toExcept ∧
      (s.enqueue scope).1 = .enqueued 1 ∧
      (s.enqueue scope).2.await 1 = forced.recorded outcome ∧
      (s.enqueue scope).2.sleep 3500 = (forced.recorded outcome).onPipeline (·.turn 3500) := by
  intro scope s forced outcome
  obtain ⟨history, hcourse, -⟩ := exists_course (build_taking 3000) [.append .desk (.saying "x")]
  have hrest : s.pipeline.AtRest := ⟨rfl, rfl, by decide +kernel, by decide +kernel⟩
  have hevents : s.pipeline.log.hasEvents scope.session scope.filter = true := by decide +kernel
  have hidle : (s.state scope).inFlight = 0 := by decide +kernel
  obtain ⟨number, ended, hanswer, hnumber, -, -, -, hawait, hsleep⟩ :=
    background_agrees_with_forced (build_taking 3000) hcourse rfl hrest hevents hidle
  have hforced : (s.summarize scope true).1 = outcome.toExcept := by decide +kernel
  have hended : ended = outcome := by
    have hsame := hanswer.symm.trans hforced
    cases ended with
    | succeeded summary => exact congrArg Outcome.succeeded (Except.ok.inj hsame)
    | failed reason => cases hsame
    | timedOut after => cases hsame
  have hfirst : (s.enqueue scope).1 = .enqueued 1 := by decide +kernel
  have hclock : forced.pipeline.clock = 3000 := by decide +kernel
  cases hnumber.symm.trans hfirst
  subst hended
  have hstart : s.pipeline.clock = 0 := rfl
  refine ⟨⟨history, hcourse⟩, rfl, hrest, hevents, hidle, hforced, hfirst, hawait, ?_⟩
  have hlong := hsleep 3500 (by rw [hclock, hstart]; omega)
  rwa [hstart, Nat.zero_add] at hlong

end Service

end Transcript
