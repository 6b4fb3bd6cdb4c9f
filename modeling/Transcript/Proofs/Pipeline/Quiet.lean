import Transcript.Pipeline.Timeline

/-!
# Quiet steps of a pipeline

Most of what happens in a pipeline concerns the counters, the pool, the clock, or the begin and the
end of a run. Such a step is `Quiet`: it leaves the events, the summaries and the prompts alone, and
takes no run to the model or to the store. What is said about summaries has to be shown for the few
steps that are not quiet only.
-/

namespace Transcript

/-- The number up to which a run will cover the events of its scope, once it has asked the model. -/
def Stage.boundary? : Stage → Option Nat
  | .loading _ => none
  | .asking boundary _ => some boundary
  | .storing summary _ => some summary.coveredUntil

namespace Pipeline

variable {σ : Type}

/-- The step has nothing to do with events, summaries and prompts, and a run that is new has not
asked the model yet. -/
structure Quiet (p p' : Pipeline σ) : Prop where
  log : p'.log = p.log
  store : p'.store = p.store
  prompts : p'.prompts = p.prompts
  runs : ∀ run ∈ p'.runs, run ∈ p.runs ∨ run.stage.boundary? = none

namespace Quiet

variable {p p' p'' : Pipeline σ}

/-- To do nothing is quiet. -/
@[simp] theorem refl (p : Pipeline σ) : Quiet p p := ⟨rfl, rfl, rfl, fun _ h => .inl h⟩

/-- Two quiet steps are as quiet as one. -/
theorem trans (h : Quiet p p') (h' : Quiet p' p'') : Quiet p p'' where
  log := h'.log.trans h.log
  store := h'.store.trans h.store
  prompts := h'.prompts.trans h.prompts
  runs := by
    intro run hrun
    rcases h'.runs run hrun with hold | hnew
    · exact h.runs run hold
    · exact .inr hnew

/-- A step is quiet that does no more than to end some runs. -/
theorem of_runs_subset (hlog : p'.log = p.log) (hstore : p'.store = p.store)
    (hprompts : p'.prompts = p.prompts) (hruns : p'.runs ⊆ p.runs) : Quiet p p' :=
  ⟨hlog, hstore, hprompts, fun _ h => .inl (hruns h)⟩

/-- The clock, the counters, the pool, the outcomes and the numbers of calls do not matter. -/
theorem of_same_runs (hlog : p'.log = p.log) (hstore : p'.store = p.store)
    (hprompts : p'.prompts = p.prompts) (hruns : p'.runs = p.runs) : Quiet p p' :=
  of_runs_subset hlog hstore hprompts (hruns ▸ List.Subset.refl _)

end Quiet

/-! ## What is quiet -/

/-- What happens in the pool is quiet. -/
theorem quiet_on_pool (p : Pipeline σ) (f : Pool → Pool) : Quiet p (p.onPool f) :=
  .of_same_runs rfl rfl rfl rfl

/-- So is time that passes. -/
theorem quiet_turn (p : Pipeline σ) (clock : Nat) : Quiet p (p.turn clock) :=
  .of_same_runs rfl rfl rfl rfl

/-- So it is to give up a job. -/
theorem quiet_release (p : Pipeline σ) (job : Job) : Quiet p (p.release job) := by
  unfold release untrack
  split
  · exact .of_same_runs rfl rfl rfl rfl
  · exact .refl p

/-- A job may end at any time and in any way. -/
theorem quiet_finish (setup : Setup) (p : Pipeline σ) (job : Job) (byWorker : Bool)
    (outcome : Outcome) : Quiet p (p.finish setup job byWorker outcome) := by
  have hreset : Quiet p { p with
      runs := p.runs.filter (·.job.number != job.number)
      counters := p.counters.reset job.scope (p.now setup) } :=
    .of_runs_subset rfl rfl rfl List.filter_sublist.subset
  have hnote : Quiet p (((Pipeline.release _ job).note job outcome) : Pipeline σ) :=
    (hreset.trans (quiet_release _ job)).trans (.of_same_runs rfl rfl rfl rfl)
  cases byWorker with
  | true => exact hnote.trans (quiet_on_pool _ _)
  | false => exact hnote

/-- The begin of a run is quiet: it has to load the last summary first. -/
theorem quiet_begin (setup : Setup) (p : Pipeline σ) (job : Job) (byWorker : Bool) :
    Quiet p (p.begin setup job byWorker) := by
  unfold begin
  split
  · exact quiet_finish setup p job byWorker _
  · refine ⟨rfl, rfl, rfl, ?_⟩
    intro run hrun
    rcases List.mem_append.1 hrun with hold | hnew
    · exact .inl hold
    · rw [List.mem_singleton.1 hnew]
      exact .inr rfl

/-- So it is to put a job into the queue. -/
theorem quiet_enqueue (p : Pipeline σ) (job : Job) : Quiet p (p.enqueue job).2 := by
  unfold enqueue
  split
  · exact quiet_release p job
  · split
    · exact quiet_release p job
    · split
      · exact quiet_on_pool p _
      · have hdrop : Quiet p (p.onPool Pool.drop).warn := .of_same_runs rfl rfl rfl rfl
        exact hdrop.trans (quiet_release _ job)

/-- A worker takes a job from the queue and runs it, or gives it up. -/
theorem quiet_take (setup : Setup) (p : Pipeline σ) (job : Job) : Quiet p (p.take setup job) := by
  have hpop := quiet_on_pool p fun pool => { pool with queue := pool.queue.tail }
  refine hpop.trans ?_
  unfold take
  dsimp only
  split
  · exact (quiet_on_pool _ _).trans (quiet_release _ job)
  · exact quiet_begin setup _ job true

/-- The workers are stopped in the midst of their jobs. -/
theorem quiet_abort (p : Pipeline σ) : Quiet p p.abort := by
  have hfilter : Quiet p { p with runs := p.runs.filter (!·.byWorker) } :=
    .of_runs_subset rfl rfl rfl List.filter_sublist.subset
  exact hfilter.trans (.of_same_runs rfl rfl rfl rfl)

/-! ## What is not quiet -/

/-- Where a run is put in, there is no other run for the same job. -/
theorem mem_put_run {p : Pipeline σ} {run r : Run} (hr : r ∈ (p.putRun run).runs) :
    r = run ∨ r ∈ p.runs ∧ r.job.number ≠ run.job.number := by
  obtain ⟨old, hold, rfl⟩ := List.mem_map.1 hr
  by_cases hnumber : old.job.number = run.job.number
  · rw [if_pos hnumber]
    exact .inl rfl
  · rw [if_neg hnumber]
    exact .inr ⟨hold, hnumber⟩

/-- If no events have come since the last summary, a job has nothing to do. -/
theorem quiet_ask (setup : Setup) (p : Pipeline σ) (run : Run) (previous : Option Summary)
    (hevents : p.log.eventsAfter run.job.scope.session run.job.scope.filter
      (previous.map Summary.coveredUntil) = []) :
    Quiet p (p.ask setup run previous) := by
  unfold ask
  simp only [hevents, List.getLast?_nil]
  exact quiet_finish setup p run.job run.byWorker _

/-- If there are events, the model is given a prompt, and the run waits for its answer. -/
theorem ask_eq (setup : Setup) (p : Pipeline σ) (run : Run) (previous : Option Summary)
    {last : Event}
    (hlast : (p.log.eventsAfter run.job.scope.session run.job.scope.filter
      (previous.map Summary.coveredUntil)).getLast? = some last) :
    let prompt := setup.template.render (previous.map Summary.text)
      (p.log.eventsAfter run.job.scope.session run.job.scope.filter
        (previous.map Summary.coveredUntil))
    let call := (setup.summarizer.reply (p.prompts.length + 1) prompt).within p.clock run.deadline
    p.ask setup run previous =
      { p with prompts := p.prompts ++ [prompt] }.putRun
        { run with stage := .asking last.id call.ending, due := call.due } := by
  unfold ask
  simp only [hlast]

/-- An answer of the model ends the job, or is stored as a summary up to the same boundary. -/
theorem keep_cases (setup : Setup) (p : Pipeline σ) (run : Run) (boundary : Nat)
    (output : ModelOutput) :
    Quiet p (p.keep setup run boundary output) ∨
      ∃ summary ending due, summary.coveredUntil = boundary ∧
        p.keep setup run boundary output =
          { p with stores := p.stores + 1 }.putRun
            { run with stage := .storing summary ending, due } := by
  unfold keep
  dsimp only
  split
  · exact .inl (quiet_finish setup p run.job run.byWorker _)
  · exact .inr ⟨_, _, _, rfl, rfl⟩

end Pipeline

end Transcript
