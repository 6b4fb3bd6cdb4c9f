import Mathlib.Data.List.Nodup
import Transcript.Proofs.Pipeline.Steps
import Transcript.Proofs.Pipeline.Turns

/-!
# Schedules keep a ledger

`Posts setup exclusive allowed p p'` says that `p'` comes of `p` through steps with a ledger, all of
whose entries are allowed. So it is with every part of a schedule: while the caller waits, jobs that
run go on and end, and workers take the jobs that wait (`Pipeline.is_scheduled_posts`).
-/

namespace Transcript

/-- Whether an entry is about something that happens while the caller waits. -/
def Entry.isInner : Entry → Bool
  | .other | .started _ | .abandoned _ | .ended _ _ _ => true
  | _ => false

namespace Pipeline

variable {σ : Type}

/-- Steps with a ledger of allowed entries lead from one pipeline to the other. -/
def Posts (setup : Setup) (exclusive : Bool) (allowed : Entry → Prop) (p p' : Pipeline σ) : Prop :=
  p.Distinct → ∃ l, Steps setup exclusive p l p' ∧ ∀ e ∈ l, allowed e

variable {setup : Setup} {exclusive : Bool} {allowed : Entry → Prop} {p p' p'' : Pipeline σ}

namespace Posts

/-- There may be no steps at all. -/
theorem refl (p : Pipeline σ) : Posts setup exclusive allowed p p :=
  fun _ => ⟨[], .start, by simp⟩

/-- Steps may follow on others. -/
theorem trans (h : Posts setup exclusive allowed p p') (h' : Posts setup exclusive allowed p' p'') :
    Posts setup exclusive allowed p p'' := by
  intro hdistinct
  obtain ⟨l, hsteps, hallowed⟩ := h hdistinct
  obtain ⟨m, hsteps', hallowed'⟩ := h' (hsteps.distinct hdistinct)
  refine ⟨l ++ m, hsteps.trans hsteps', fun e he => ?_⟩
  rcases List.mem_append.1 he with hl | hm
  · exact hallowed e hl
  · exact hallowed' e hm

/-- It may be a single step. -/
theorem of_step {e : Entry} (h : Step setup exclusive p e p') (hallowed : allowed e) :
    Posts setup exclusive allowed p p' :=
  fun _ => ⟨[e], .single h, by simpa using hallowed⟩

/-- The pool is closed, and after some time its workers go. -/
theorem of_parting {e : Entry} (hclosing : p.close.isClosing = true) (hclosed : allowed .closed)
    (hwait : Posts setup exclusive allowed p.close p')
    (hparting : p'.isClosing = true → Step setup exclusive p' e p'') (hallowed : allowed e) :
    Posts setup exclusive allowed p p'' := by
  intro hdistinct
  have hclose : Step setup exclusive p .closed p.close := .close p
  obtain ⟨l, hsteps, hl⟩ := hwait (hclose.distinct hdistinct)
  refine ⟨.closed :: (l ++ [e]), ?_, ?_⟩
  · exact (Steps.single hclose).trans (.next hsteps (hparting (hsteps.is_closing hclosing)))
  · intro entry hentry
    rcases List.mem_cons.1 hentry with rfl | hentry
    · exact hclosed
    · rcases List.mem_append.1 hentry with hearlier | hlast
      · exact hl entry hearlier
      · rwa [List.mem_singleton.1 hlast]

end Posts

/-! ## Runs -/

variable (hinner : ∀ e, e.isInner = true → allowed e)
include hinner

/-- Nothing happens to the jobs. -/
theorem posts_same (h : SameJobs p p') : Posts setup exclusive allowed p p' :=
  .of_step (.other h) (hinner _ rfl)

/-- A run may be put in the place of one with the same job, when nothing else has happened to
jobs. -/
theorem posts_put_run {q : Pipeline σ} {run run' : Run} (hrun : run ∈ p.runs)
    (hpool : q.pool = p.pool) (hcreated : q.created = p.created) (hruns : q.runs = p.runs)
    (hcounters : q.counters = p.counters) (hjob : run'.job = run.job)
    (hworker : run'.byWorker = run.byWorker) : Posts setup exclusive allowed p (q.putRun run') := by
  intro hdistinct
  have htickets : (q.putRun run').tickets = p.tickets := by
    unfold tickets putRun
    rw [hruns, List.map_map]
    refine List.map_congr_left fun r hr => ?_
    dsimp only [Function.comp]
    split
    · rename_i hnumber
      -- The numbers are different, so it is the very run that is replaced.
      have hsame : r = run := by
        rw [hjob] at hnumber
        exact List.inj_on_of_nodup_map hdistinct.runs_nodup hr hrun hnumber
      rw [hsame, hjob, hworker]
    · rfl
  refine posts_same hinner ⟨hpool, hcreated, htickets, fun scope => ?_⟩ hdistinct
  exact congrArg (TriggerCounters.inFlight · scope) hcounters

/-- The end of a run is a step of its own. -/
theorem posts_finish {run : Run} (hrun : run ∈ p.runs) (outcome : Outcome) :
    Posts setup exclusive allowed p (p.finish setup run.job run.byWorker outcome) :=
  .of_step (.finish hrun outcome) (hinner _ rfl)

/-- The question to the model ends the run or posts nothing. -/
theorem posts_ask {run : Run} (hrun : run ∈ p.runs) (previous : Option Summary) :
    Posts setup exclusive allowed p (p.ask setup run previous) := by
  unfold ask
  dsimp only
  split
  · exact posts_finish hinner hrun _
  · exact posts_put_run hinner hrun rfl rfl rfl rfl rfl rfl

/-- So does the call to the store. -/
theorem posts_keep {run : Run} (hrun : run ∈ p.runs) (boundary : Nat) (output : ModelOutput) :
    Posts setup exclusive allowed p (p.keep setup run boundary output) := by
  unfold keep
  dsimp only
  split
  · exact posts_finish hinner hrun _
  · exact posts_put_run hinner hrun rfl rfl rfl rfl rfl rfl

/-- So does whatever the model answers. -/
theorem posts_answered {run : Run} (hrun : run ∈ p.runs) (boundary : Nat)
    (ending : Option (Ending ModelOutput)) :
    Posts setup exclusive allowed p (p.answered setup run boundary ending) := by
  rcases ending with _ | (output | reason | message)
  · exact posts_finish hinner hrun _
  · exact posts_keep hinner hrun boundary output
  · exact posts_finish hinner hrun _
  · exact posts_finish hinner hrun _

variable [SummaryStore σ]

/-- So does whatever the store says about the last summary. -/
theorem posts_loaded {run : Run} (hrun : run ∈ p.runs) (ending : Option (Ending Unit)) :
    Posts setup exclusive allowed p (p.loaded setup run ending) := by
  rcases ending with _ | (value | reason | message)
  · exact posts_finish hinner hrun _
  · unfold loaded
    dsimp only
    split
    · exact posts_ask hinner hrun _
    · exact posts_finish hinner hrun _
  · exact posts_finish hinner hrun _
  · exact posts_finish hinner hrun _

/-- The end of the last call ends the run. -/
theorem posts_stored {run : Run} (hrun : run ∈ p.runs) (summary : Summary) (ending : Ending Unit) :
    Posts setup exclusive allowed p (p.stored setup run summary ending) := by
  rcases ending with value | reason | message
  · unfold stored
    dsimp only
    generalize SummaryStore.store p.store run.job.scope summary = result
    obtain ⟨outcome, store⟩ := result
    have hstore : Posts setup exclusive allowed p { p with store } :=
      posts_same hinner ⟨rfl, rfl, rfl, fun _ => rfl⟩
    have hrun' : run ∈ Pipeline.runs { p with store } := hrun
    cases outcome with
    | ok value => exact hstore.trans (posts_finish hinner hrun' _)
    | error f => exact hstore.trans (posts_finish hinner hrun' _)
  · exact posts_finish hinner hrun _
  · exact posts_finish hinner hrun _

/-- A run goes on, or it ends. -/
theorem posts_resume {run : Run} (hrun : run ∈ p.runs) :
    Posts setup exclusive allowed p (p.resume setup run) := by
  unfold resume
  split
  · exact posts_loaded hinner hrun _
  · exact posts_answered hinner hrun _ _
  · exact posts_stored hinner hrun _ _

omit [SummaryStore σ] in
/-- What becomes of a run that has just begun. -/
theorem posts_begin {job : Job} {byWorker : Bool}
    (hrun : ∀ run : Run, run.job = job → run.byWorker = byWorker →
      Posts setup exclusive allowed p (p'.addRun run)) :
    Posts setup exclusive allowed p (p'.begin setup job byWorker) := by
  unfold begin
  split
  · -- A job may end before it has made a call.
    let run : Run := ⟨job, byWorker, 0, .loading none, 0⟩
    have hend : Posts setup exclusive allowed (p'.addRun run)
        ((p'.addRun run).finish setup run.job run.byWorker
          (brokenDown (some "overflow when adding duration to instant"))) :=
      posts_finish hinner (List.mem_append_right _ (List.mem_singleton_self run)) _
    rw [finish_add_run] at hend
    exact (hrun run rfl rfl).trans hend
  · exact (hrun _ rfl rfl).trans (posts_same hinner ⟨rfl, rfl, rfl, fun _ => rfl⟩)

omit [SummaryStore σ] in
/-- A worker takes a job and runs it, or gives it up. -/
theorem posts_take {job : Job} (hnext : p.nextJob? = some job) :
    Posts setup exclusive allowed p (p.take setup job) := by
  cases hclosing : p.isClosing with
  | true => exact .of_step (.abandon hnext hclosing) (hinner _ rfl)
  | false =>
      rw [take_of_open setup p job hclosing]
      refine posts_begin hinner fun run hjob hworker => ?_
      subst hjob
      exact .of_step (.start hnext hclosing hworker) (hinner _ rfl)

/-- So whatever is put together from turns posts entries that are allowed. -/
theorem is_scheduled_posts : IsScheduled setup (Posts (σ := σ) setup exclusive allowed) where
  refl := .refl
  trans := .trans
  turn _ _ := posts_same hinner ⟨rfl, rfl, rfl, fun _ => rfl⟩
  resume := posts_resume hinner
  take := posts_take hinner

omit hinner in
/-- A shutdown is made of steps too. -/
theorem exists_steps_of_shutdown (hdistinct : p.Distinct) :
    ∃ l, Steps setup exclusive p l (p.shutdown setup) := by
  have hscheduled : IsScheduled setup (Posts (σ := σ) setup exclusive fun _ => True) :=
    is_scheduled_posts fun _ _ => trivial
  have hposts : Posts setup exclusive (fun _ => True) p (p.shutdown setup) := hscheduled.shutdown
    (fun hclosing hwait hdrained => .of_parting hclosing trivial hwait
      (.dismiss · hdrained) trivial)
    (fun hclosing hwait => .of_parting hclosing trivial hwait .expire trivial)
  obtain ⟨l, hsteps, -⟩ := hposts hdistinct
  exact ⟨l, hsteps⟩

end Pipeline

end Transcript
