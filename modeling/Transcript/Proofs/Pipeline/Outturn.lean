import Transcript.Proofs.Pipeline.Aftermath
import Transcript.Proofs.Pipeline.Quiet
import Transcript.Proofs.Trigger.Account

/-!
# What jobs do in their turns

`Pipeline.JobTurn` is a turn of a job under any schedule: a worker takes it from the queue, or its
run goes on after a call that has ended in any way. What there is to tell of a turn is what the
pipeline has put on record in it, the prompts that the model was given and the outcome of the job.

`Pipeline.Outturn` is all that can come of a turn (`Pipeline.JobTurn.outturn`). What is said about
the store, the counters and the prompts has to be shown for its few cases only.
-/

namespace Transcript

/-- What happens to the scopes of a service. An event comes in (`appended`), or a session is removed
(`removed`). A job is made because the caller asks for it, whether the pool lets it in or not
(`requested`), or because the caller is to get a summary at once (`forced`). A job gives the model a
prompt (`asked`), and it ends with an outcome (`ended`). -/
inductive Happening where
  | appended (key : SessionKey) (e : Event)
  | removed (key : SessionKey)
  | requested (scope : Scope)
  | forced (job : Job)
  | asked (job : Job) (prompt : String)
  | ended (job : Job) (outcome : Outcome) (time : Timestamp)
deriving DecidableEq

namespace Happening

/-- The prompt that the model is given. -/
def prompt? : Happening → Option String
  | .asked _ prompt => some prompt
  | _ => none

/-- The outcome of the job that ends, with its number. -/
def outcome? : Happening → Option (Nat × Outcome)
  | .ended job outcome _ => some (job.number, outcome)
  | _ => none

/-- The summary of the job that ends, if it is one of the scope and has made one. -/
def summary? (scope : Scope) : Happening → Option Summary
  | .ended job outcome _ => if job.scope = scope then outcome.summary? else none
  | _ => none

end Happening

namespace Pipeline

variable {σ : Type}

/-- What the pipeline has put on record in a turn of a job. -/
def report (setup : Setup) (job : Job) (p p' : Pipeline σ) : List Happening :=
  (p'.prompts.drop p.prompts.length).map (.asked job) ++
    (p'.outcomes.drop p.outcomes.length).map fun o => .ended job o.2 (p.now setup)

section Report

variable {setup : Setup} {job : Job} {p p' : Pipeline σ}

/-- There is nothing to tell if nothing was put on record. -/
theorem report_of_same (hprompts : p'.prompts = p.prompts) (houtcomes : p'.outcomes = p.outcomes) :
    p.report setup job p' = [] := by
  unfold report
  rw [hprompts, houtcomes, List.drop_length, List.drop_length]
  rfl

/-- A new prompt is all there is to tell. -/
theorem report_of_asked {prompt : String} (hprompts : p'.prompts = p.prompts ++ [prompt])
    (houtcomes : p'.outcomes = p.outcomes) : p.report setup job p' = [.asked job prompt] := by
  unfold report
  rw [hprompts, houtcomes, List.drop_left, List.drop_length]
  rfl

/-- A new outcome is all there is to tell. -/
theorem report_of_ended {outcome : Outcome} (hprompts : p'.prompts = p.prompts)
    (houtcomes : p'.outcomes = p.outcomes ++ [(job.number, outcome)]) :
    p.report setup job p' = [.ended job outcome (p.now setup)] := by
  unfold report
  rw [hprompts, houtcomes, List.drop_left, List.drop_length]
  rfl

end Report

/-! ## The counters at the end of a job -/

/-- What is known about a scope of the pipeline, apart from its jobs. -/
def account (p : Pipeline σ) (scope : Scope) : Option TriggerState := p.counters.account scope

/-- A job that is given up leaves all accounts as they are. -/
theorem account_release (p : Pipeline σ) (job : Job) (scope : Scope) :
    (p.release job).account scope = p.account scope := by
  rw [release_eq]
  unfold account
  dsimp only
  split
  · exact p.counters.account_end_job job.scope scope
  · rfl

/-- When a job ends its scope starts to count anew, if it is known at all. -/
theorem account_finish (setup : Setup) (p : Pipeline σ) (job : Job) (byWorker : Bool)
    (outcome : Outcome) (scope : Scope) :
    (p.finish setup job byWorker outcome).account scope =
      if scope = job.scope then (p.account scope).map (·.reset (p.now setup))
      else p.account scope := by
  rw [finish_eq]
  unfold account
  dsimp only
  split
  · exact (TriggerCounters.account_end_job _ _ _).trans (p.counters.account_reset _ _ _)
  · exact p.counters.account_reset _ _ _

variable [SummaryStore σ]

/-! ## Turns -/

/-- A turn of a job, under any schedule. The call that its run waits for may end in any way. -/
inductive JobTurn (setup : Setup) (p : Pipeline σ) : Job → Pipeline σ → Prop where
  | take {job : Job} (hnext : p.nextJob? = some job) : JobTurn setup p job (p.take setup job)
  | loaded {run : Run} {planned : Option (Ending Unit)} (hrun : run ∈ p.runs)
      (hstage : run.stage = .loading planned) (ending : Option (Ending Unit)) :
      JobTurn setup p run.job (p.loaded setup run ending)
  | answered {run : Run} {boundary : Nat} {planned : Option (Ending ModelOutput)}
      (hrun : run ∈ p.runs) (hstage : run.stage = .asking boundary planned)
      (ending : Option (Ending ModelOutput)) :
      JobTurn setup p run.job (p.answered setup run boundary ending)
  | stored {run : Run} {summary : Summary} {planned : Ending Unit} (hrun : run ∈ p.runs)
      (hstage : run.stage = .storing summary planned) (ending : Ending Unit) :
      JobTurn setup p run.job (p.stored setup run summary ending)

/-- A run goes on in a turn of its job. -/
theorem JobTurn.resume {setup : Setup} {p : Pipeline σ} {run : Run} (hrun : run ∈ p.runs) :
    JobTurn setup p run.job (p.resume setup run) := by
  unfold Pipeline.resume
  split
  · rename_i ending hstage
    exact .loaded hrun hstage ending
  · rename_i boundary ending hstage
    exact .answered hrun hstage ending
  · rename_i summary ending hstage
    exact .stored hrun hstage ending

/-- What comes of a turn of a job, with what there is to tell of it. The job begins to run or is
given up (`idle`), it ends without a summary and without having called the store (`ended`), it asks
the model about the events behind the last summary (`asked`), or it has got its answer and calls the
store (`kept`). The store may have done what it was told, and the job ends with the summary
(`written`), or it may have refused that (`refused`). -/
inductive Outturn (setup : Setup) (p : Pipeline σ) (job : Job) :
    List Happening → Pipeline σ → Prop where
  | idle {p' : Pipeline σ} (hquiet : Quiet p p') (houtcomes : p'.outcomes = p.outcomes)
      (haccount : ∀ scope, p'.account scope = p.account scope) : Outturn setup p job [] p'
  | ended {p' : Pipeline σ} {outcome : Outcome} (hquiet : Quiet p p')
      (houtcomes : p'.outcomes = p.outcomes ++ [(job.number, outcome)])
      (haccount : ∀ scope, p'.account scope =
        if scope = job.scope then (p.account scope).map (·.reset (p.now setup))
        else p.account scope)
      (hnone : outcome.summary? = none) :
      Outturn setup p job [.ended job outcome (p.now setup)] p'
  | asked {run : Run} {planned : Option (Ending Unit)} {previous : Option Summary}
      (hrun : run ∈ p.runs) (hjob : run.job = job) (hstage : run.stage = .loading planned)
      (hload : SummaryStore.load p.store job.scope = .ok previous)
      (hnews : p.news job.scope previous ≠ []) :
      Outturn setup p job
        [.asked job (setup.template.render (previous.map Summary.text) (p.news job.scope previous))]
        (p.ask setup run previous)
  | kept {run : Run} {planned : Option (Ending ModelOutput)} {summary : Summary}
      (ending : Ending Unit) (due : Nat) (hrun : run ∈ p.runs) (hjob : run.job = job)
      (hstage : run.stage = .asking summary.coveredUntil planned) :
      Outturn setup p job []
        ({ p with stores := p.stores + 1 }.putRun
          { run with stage := .storing summary ending, due })
  | written {run : Run} {summary : Summary} {planned : Ending Unit} {store : σ}
      (hrun : run ∈ p.runs) (hjob : run.job = job) (hstage : run.stage = .storing summary planned)
      (hstore : SummaryStore.store p.store job.scope summary = (.ok (), store)) :
      Outturn setup p job [.ended job (.succeeded (some summary)) (p.now setup)]
        ({ p with store }.finish setup job run.byWorker (.succeeded (some summary)))
  | refused {run : Run} {summary : Summary} {planned : Ending Unit} {f : Failure} {store : σ}
      (hrun : run ∈ p.runs) (hjob : run.job = job) (hstage : run.stage = .storing summary planned)
      (hstore : SummaryStore.store p.store job.scope summary = (.error f, store)) :
      Outturn setup p job [.ended job (.failed f.message) (p.now setup)]
        ({ p with store }.finish setup job run.byWorker (.failed f.message))

section Outturn

variable {setup : Setup} {p : Pipeline σ} {job : Job}

omit [SummaryStore σ] in
/-- The outcome of a job that ends is taken down. -/
theorem outcomes_finish (setup : Setup) (p : Pipeline σ) (job : Job) (byWorker : Bool)
    (outcome : Outcome) :
    (p.finish setup job byWorker outcome).outcomes = p.outcomes ++ [(job.number, outcome)] := by
  rw [finish_eq]

omit [SummaryStore σ] in
/-- The end of a job asks nothing of the model. -/
theorem prompts_finish (setup : Setup) (p : Pipeline σ) (job : Job) (byWorker : Bool)
    (outcome : Outcome) : (p.finish setup job byWorker outcome).prompts = p.prompts := by
  rw [finish_eq]

/-- What comes of a turn goes with what was put on record. -/
theorem Outturn.of_report {news : List Happening} {p' : Pipeline σ}
    (h : Outturn setup p job news p') (hreport : p.report setup job p' = news) :
    Outturn setup p job (p.report setup job p') p' := by
  rwa [hreport]

/-- A job may end without a summary at any time, also when something quiet has happened before. -/
theorem Outturn.of_finish {q : Pipeline σ} (hquiet : Quiet p q)
    (houtcomes : q.outcomes = p.outcomes) (hcounters : q.counters = p.counters)
    (hclock : q.clock = p.clock) (byWorker : Bool) {outcome : Outcome}
    (hnone : outcome.summary? = none) :
    Outturn setup p job (p.report setup job (q.finish setup job byWorker outcome))
      (q.finish setup job byWorker outcome) := by
  have hended : (q.finish setup job byWorker outcome).outcomes =
      p.outcomes ++ [(job.number, outcome)] := by rw [outcomes_finish, houtcomes]
  have hprompts : (q.finish setup job byWorker outcome).prompts = p.prompts := by
    rw [prompts_finish, hquiet.prompts]
  refine .of_report (.ended (hquiet.trans (quiet_finish ..)) hended (fun scope => ?_) hnone)
    (report_of_ended hprompts hended)
  rw [account_finish]
  unfold account now
  rw [hcounters, hclock]

/-- A job that begins waits for the last summary, or it ends at once. -/
theorem outturn_begin {q : Pipeline σ} (hquiet : Quiet p q) (houtcomes : q.outcomes = p.outcomes)
    (hcounters : q.counters = p.counters) (hclock : q.clock = p.clock) (byWorker : Bool) :
    Outturn setup p job (p.report setup job (q.begin setup job byWorker))
      (q.begin setup job byWorker) := by
  have hbegin := hquiet.trans (quiet_begin setup q job byWorker)
  unfold begin at hbegin ⊢
  split at hbegin
  · exact .of_finish hquiet houtcomes hcounters hclock byWorker rfl
  · refine .of_report (.idle hbegin houtcomes fun scope => ?_)
      (report_of_same hquiet.prompts houtcomes)
    exact congrArg (TriggerCounters.account · scope) hcounters

omit [SummaryStore σ] in
/-- At its begin a job can do no more than to end. -/
theorem report_begin (setup : Setup) (p : Pipeline σ) (job : Job) (byWorker : Bool) :
    p.report setup job (p.begin setup job byWorker) = [] ∨
      ∃ outcome : Outcome, outcome.summary? = none ∧
        p.report setup job (p.begin setup job byWorker) = [.ended job outcome (p.now setup)] := by
  unfold begin
  split
  · exact .inr ⟨_, rfl, report_of_ended (prompts_finish ..) (outcomes_finish ..)⟩
  · exact .inl (report_of_same rfl rfl)

/-- A worker takes a job and begins to run it, or gives it up. -/
theorem outturn_take : Outturn setup p job (p.report setup job (p.take setup job))
    (p.take setup job) := by
  have hquiet := quiet_take setup p job
  cases hclosing : p.isClosing with
  | true =>
      rw [take_of_closing setup p job hclosing] at hquiet ⊢
      have houtcomes : ((p.popJob.onPool Pool.abandon).release job).outcomes = p.outcomes := by
        rw [release_eq]
        rfl
      refine .of_report (.idle hquiet houtcomes fun scope => ?_)
        (report_of_same hquiet.prompts houtcomes)
      exact account_release (p.popJob.onPool Pool.abandon) job scope
  | false =>
      rw [take_of_open setup p job hclosing] at hquiet ⊢
      exact outturn_begin (quiet_on_pool _ _) rfl rfl rfl true

omit [SummaryStore σ] in
/-- If there are new events, the model is given a prompt that tells them. -/
theorem ask_of_news (setup : Setup) {run : Run} {previous : Option Summary}
    (hnews : p.news run.job.scope previous ≠ []) :
    ∃ last ending due, (p.news run.job.scope previous).getLast? = some last ∧
      p.ask setup run previous =
        { p with prompts := p.prompts ++
            [setup.template.render (previous.map Summary.text)
              (p.news run.job.scope previous)] }.putRun
          { run with stage := .asking last.id ending, due } := by
  obtain ⟨last, hlast⟩ := Option.isSome_iff_exists.1 (List.getLast?_isSome.2 hnews)
  exact ⟨last, _, _, hlast, p.ask_eq setup run previous hlast⟩

/-- A turn in which the last summary is there leads to the question or to the end. -/
theorem outturn_ask {run : Run} {planned : Option (Ending Unit)} {previous : Option Summary}
    (hrun : run ∈ p.runs) (hstage : run.stage = .loading planned)
    (hload : SummaryStore.load p.store run.job.scope = .ok previous) :
    Outturn setup p run.job (p.report setup run.job (p.ask setup run previous))
      (p.ask setup run previous) := by
  by_cases hnews : p.news run.job.scope previous = []
  · have hask : p.ask setup run previous =
        p.finish setup run.job run.byWorker (.succeeded none) := by
      unfold ask
      unfold news at hnews
      simp only [hnews, List.getLast?_nil]
    rw [hask]
    exact .of_finish (.refl p) rfl rfl rfl run.byWorker rfl
  · obtain ⟨last, ending, due, -, hask⟩ := ask_of_news setup hnews
    have hprompts : (p.ask setup run previous).prompts = p.prompts ++
        [setup.template.render (previous.map Summary.text) (p.news run.job.scope previous)] := by
      rw [hask]
      rfl
    have houtcomes : (p.ask setup run previous).outcomes = p.outcomes := by
      rw [hask]
      rfl
    exact .of_report (.asked hrun rfl hstage hload hnews) (report_of_asked hprompts houtcomes)

/-- What comes of the turn after the call to load the last summary. -/
theorem outturn_loaded {run : Run} {planned : Option (Ending Unit)} (hrun : run ∈ p.runs)
    (hstage : run.stage = .loading planned) (ending : Option (Ending Unit)) :
    Outturn setup p run.job (p.report setup run.job (p.loaded setup run ending))
      (p.loaded setup run ending) := by
  rcases ending with _ | (value | reason | message)
  · exact .of_finish (.refl p) rfl rfl rfl run.byWorker rfl
  · unfold loaded
    dsimp only
    split
    · rename_i previous hload
      exact outturn_ask hrun hstage hload
    · exact .of_finish (.refl p) rfl rfl rfl run.byWorker rfl
  · exact .of_finish (.refl p) rfl rfl rfl run.byWorker rfl
  · exact .of_finish (.refl p) rfl rfl rfl run.byWorker rfl

/-- A turn in which there is an answer leads to the store or to the end. -/
theorem outturn_keep {run : Run} {boundary : Nat} {planned : Option (Ending ModelOutput)}
    (hrun : run ∈ p.runs) (hstage : run.stage = .asking boundary planned) (output : ModelOutput) :
    Outturn setup p run.job (p.report setup run.job (p.keep setup run boundary output))
      (p.keep setup run boundary output) := by
  unfold keep
  dsimp only
  split
  · exact .of_finish (.refl p) rfl rfl rfl run.byWorker rfl
  · exact .of_report (.kept _ _ hrun rfl hstage) (report_of_same rfl rfl)

/-- What comes of the turn after the call to the model. -/
theorem outturn_answered {run : Run} {boundary : Nat} {planned : Option (Ending ModelOutput)}
    (hrun : run ∈ p.runs) (hstage : run.stage = .asking boundary planned)
    (ending : Option (Ending ModelOutput)) :
    Outturn setup p run.job (p.report setup run.job (p.answered setup run boundary ending))
      (p.answered setup run boundary ending) := by
  rcases ending with _ | (output | reason | message)
  · exact .of_finish (.refl p) rfl rfl rfl run.byWorker rfl
  · exact outturn_keep hrun hstage output
  · exact .of_finish (.refl p) rfl rfl rfl run.byWorker rfl
  · exact .of_finish (.refl p) rfl rfl rfl run.byWorker rfl

/-- What comes of the turn after the call to the store. -/
theorem outturn_stored {run : Run} {summary : Summary} {planned : Ending Unit} (hrun : run ∈ p.runs)
    (hstage : run.stage = .storing summary planned) (ending : Ending Unit) :
    Outturn setup p run.job (p.report setup run.job (p.stored setup run summary ending))
      (p.stored setup run summary ending) := by
  rcases ending with value | reason | message
  · unfold stored
    dsimp only
    split
    · rename_i store hstore
      exact .of_report (.written hrun rfl hstage hstore)
        (report_of_ended (prompts_finish ..) (outcomes_finish ..))
    · rename_i f store hstore
      exact .of_report (.refused hrun rfl hstage hstore)
        (report_of_ended (prompts_finish ..) (outcomes_finish ..))
  · exact .of_finish (.refl p) rfl rfl rfl run.byWorker rfl
  · exact .of_finish (.refl p) rfl rfl rfl run.byWorker rfl

/-- All that can come of a turn of a job. -/
theorem JobTurn.outturn {p' : Pipeline σ} (h : JobTurn setup p job p') :
    Outturn setup p job (p.report setup job p') p' := by
  cases h with
  | take hnext => exact outturn_take
  | loaded hrun hstage ending => exact outturn_loaded hrun hstage ending
  | answered hrun hstage ending => exact outturn_answered hrun hstage ending
  | stored hrun hstage ending => exact outturn_stored hrun hstage ending

namespace Outturn

variable {news : List Happening} {p' : Pipeline σ}

/-- The outcomes on record are those that there are to tell. -/
theorem outcomes_eq (h : Outturn setup p job news p') :
    p'.outcomes = p.outcomes ++ news.filterMap Happening.outcome? := by
  cases h with
  | idle _ houtcomes _ => simpa using houtcomes
  | ended _ houtcomes _ _ => simpa [Happening.outcome?] using houtcomes
  | asked _ hjob _ _ hnews =>
      subst hjob
      obtain ⟨last, ending, due, -, hask⟩ := ask_of_news setup hnews
      rw [hask]
      simp [Happening.outcome?, putRun]
  | kept => simp [putRun]
  | written => simp [outcomes_finish, Happening.outcome?]
  | refused => simp [outcomes_finish, Happening.outcome?]

/-- So are the prompts. -/
theorem prompts_eq (h : Outturn setup p job news p') :
    p'.prompts = p.prompts ++ news.filterMap Happening.prompt? := by
  cases h with
  | idle hquiet _ _ => simpa using hquiet.prompts
  | ended hquiet _ _ _ => exact hquiet.prompts.trans (List.append_nil _).symm
  | asked _ hjob _ _ hnews =>
      subst hjob
      obtain ⟨last, ending, due, -, hask⟩ := ask_of_news setup hnews
      rw [hask]
      rfl
  | kept => simp [putRun]
  | written => simp [prompts_finish, Happening.prompt?]
  | refused => simp [prompts_finish, Happening.prompt?]

end Outturn

end Outturn

end Pipeline

end Transcript
