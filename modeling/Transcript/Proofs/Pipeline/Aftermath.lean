import Transcript.Proofs.Pipeline.Jobs
import Transcript.Proofs.Session.Numbering
import Transcript.Proofs.Store.Lawful

/-!
# What a job leaves behind

A job may go wrong at each of its calls, and in several ways at each. `Pipeline.Aftermath` tells
what it has changed when it is over, however it has ended: that is told by the pipeline in which it
began, and by the outcome. While it is still `Underway`, it has changed nothing but the list of
prompts, and each of its calls takes it to the aftermath or to a later call
(`Pipeline.Underway.resume`).
-/

namespace Transcript

/-- The summary that a job has made, if it has. -/
def Outcome.summary? : Outcome → Option Summary
  | .succeeded summary => summary
  | .failed _ | .timedOut _ => none

/-- The number of calls from this one on that a run makes at most. -/
def Stage.callsLeft : Stage → Nat
  | .loading _ => 3
  | .asking _ _ => 2
  | .storing _ _ => 1

/-- A run that waits for a call has a call left. -/
theorem Stage.calls_left_pos (stage : Stage) : 0 < stage.callsLeft := by
  cases stage <;> exact Nat.succ_pos _

/-- A call that is over in time ends as it does without a deadline. -/
theorem Reply.ending_of_within {α : Type} {r : Reply α} {now deadline : Nat} {ending : Ending α}
    (h : (r.within now deadline).ending = some ending) : r.ending = ending := by
  unfold within at h
  split at h
  · exact Option.some.inj h
  · split at h
    · cases h
    · exact Option.some.inj h

namespace Pipeline

variable {σ : Type} [SummaryStore σ]

/-! ## What a job that begins now will do -/

/-- A job that begins now loads the last summary of its scope in time. -/
structure Loads (setup : Setup) (p : Pipeline σ) (job : Job) (previous : Option Summary) :
    Prop where
  inTime : ∃ deadline, setup.deadline? p.clock = some deadline ∧
    ((setup.link.load (p.loads + 1)).within p.clock deadline).ending = some (.value ())
  found : SummaryStore.load p.store job.scope = .ok previous

/-- The events of a scope that have come since the last summary. -/
def news (p : Pipeline σ) (scope : Scope) (previous : Option Summary) : List Event :=
  p.log.eventsAfter scope.session scope.filter (previous.map Summary.coveredUntil)

/-- It finds that there are no new events. -/
def Idles (setup : Setup) (p : Pipeline σ) (job : Job) : Prop :=
  ∃ previous, p.Loads setup job previous ∧ p.news job.scope previous = []

/-- It finds new events, about which it asks the model. -/
def Asks (setup : Setup) (p : Pipeline σ) (job : Job) (prompt : String) : Prop :=
  ∃ previous, p.Loads setup job previous ∧ p.news job.scope previous ≠ [] ∧
    prompt = setup.template.render (previous.map Summary.text) (p.news job.scope previous)

/-- It makes a summary of what the model answers, which covers all events of the scope. -/
structure Writes (setup : Setup) (p : Pipeline σ) (job : Job) (summary : Summary) : Prop where
  answer : ∃ prompt output, p.Asks setup job prompt ∧
    (setup.summarizer.reply (p.prompts.length + 1) prompt).ending = .value output ∧
    summary.text = Text.trim output.text ∧ summary.usage = output.usage
  text_ne : summary.text ≠ ""
  covers : (p.log.inScope job.scope).getLast?.map Event.id = some summary.coveredUntil

/-- The prompts when it has asked the model, once, or when it has not come to ask it. -/
structure Consulted (setup : Setup) (p : Pipeline σ) (job : Job) (prompts : List String) :
    Prop where
  asked : ∀ prompt, p.Asks setup job prompt → prompts = p.prompts ++ [prompt]
  unasked : (∀ prompt, ¬ p.Asks setup job prompt) → prompts = p.prompts

section Prospects

variable {setup : Setup} {p : Pipeline σ} {job : Job} {prompt : String} {previous : Option Summary}

/-- The last summary is not loaded if the call fails or takes too long. -/
theorem not_loads_of_ending {deadline : Nat} (hdeadline : setup.deadline? p.clock = some deadline)
    (hending : ((setup.link.load (p.loads + 1)).within p.clock deadline).ending ≠
      some (.value ())) :
    ¬ p.Loads setup job previous := by
  rintro ⟨⟨deadline', hdeadline', hvalue⟩, -⟩
  cases hdeadline.symm.trans hdeadline'
  exact hending hvalue

/-- Nor is it loaded if the store fails. -/
theorem not_loads_of_error {f : Failure} (hload : SummaryStore.load p.store job.scope = .error f) :
    ¬ p.Loads setup job previous := by
  rintro ⟨-, hfound⟩
  cases hload.symm.trans hfound

/-- There is one prompt at most. -/
theorem Asks.unique {other : String} (h : p.Asks setup job prompt) (h' : p.Asks setup job other) :
    other = prompt := by
  obtain ⟨previous, hloads, -, rfl⟩ := h
  obtain ⟨previous', hloads', -, rfl⟩ := h'
  cases hloads.found.symm.trans hloads'.found
  rfl

/-- The model is asked only if there is something to ask. -/
theorem Asks.not_idles (h : p.Asks setup job prompt) : ¬ p.Idles setup job := by
  obtain ⟨previous, hloads, hnews, -⟩ := h
  rintro ⟨previous', hloads', hnone⟩
  cases hloads.found.symm.trans hloads'.found
  exact hnews hnone

/-- A job that asks the model adds its prompt. -/
theorem Asks.consulted (h : p.Asks setup job prompt) :
    p.Consulted setup job (p.prompts ++ [prompt]) where
  asked other hother := by rw [h.unique hother]
  unasked hnone := absurd h (hnone prompt)

/-- A job that finds no new events adds none. -/
theorem Idles.consulted (h : p.Idles setup job) : p.Consulted setup job p.prompts where
  asked _ hasks := absurd h hasks.not_idles
  unasked _ := rfl

/-- Nor does one that does not load the last summary. -/
theorem consulted_of_not_loads (hnone : ∀ previous, ¬ p.Loads setup job previous) :
    p.Consulted setup job p.prompts where
  asked := by
    rintro prompt ⟨previous, hloads, -⟩
    exact absurd hloads (hnone previous)
  unasked _ := rfl

/-- A job that does not load the last summary cannot find that nothing is new. -/
theorem not_idles_of_not_loads (hnone : ∀ previous, ¬ p.Loads setup job previous) :
    ¬ p.Idles setup job := by
  rintro ⟨previous, hloads, -⟩
  exact hnone previous hloads

end Prospects

/-! ## A job that is under way -/

/-- What a job has come to know by the time of a call. -/
def Reached (setup : Setup) (p : Pipeline σ) (job : Job) (deadline : Nat) (prompts : List String) :
    Stage → Prop
  | .loading ending =>
    prompts = p.prompts ∧ setup.deadline? p.clock = some deadline ∧
      ending = ((setup.link.load (p.loads + 1)).within p.clock deadline).ending
  | .asking boundary ending =>
    ∃ prompt, prompts = p.prompts ++ [prompt] ∧ p.Asks setup job prompt ∧
      (p.log.inScope job.scope).getLast?.map Event.id = some boundary ∧
      ∀ output, ending = some (.value output) →
        (setup.summarizer.reply (p.prompts.length + 1) prompt).ending = .value output
  | .storing summary _ =>
    ∃ prompt, prompts = p.prompts ++ [prompt] ∧ p.Asks setup job prompt ∧ p.Writes setup job summary

/-- A job that began in `p` runs, and waits for a call. Nothing else has happened. -/
structure Underway (setup : Setup) (p : Pipeline σ) (run : Run) (p' : Pipeline σ) : Prop where
  runs : p'.runs = p.runs ++ [run]
  log : p'.log = p.log
  store : p'.store = p.store
  counters : p'.counters = p.counters
  pool : p'.pool = p.pool
  outcomes : p'.outcomes = p.outcomes
  stage : Reached setup p run.job run.deadline p'.prompts run.stage

namespace Underway

variable {setup : Setup} {p p' : Pipeline σ} {run : Run} (h : p.Underway setup run p')
  (hnew : ∀ other ∈ p.runs, other.job.number ≠ run.job.number)
include h hnew

/-- The runs of the others are left when the job is over. -/
theorem others_eq : p'.runs.filter (·.job.number != run.job.number) = p.runs := by
  rw [h.runs, List.filter_append, List.filter_eq_self.2 fun other hother => ?_]
  · simp
  · simpa using hnew other hother

/-- One call may follow another. -/
theorem put_run {stage : Stage} (due : Nat) {prompts : List String} (stores : Nat)
    (hstage : Reached setup p run.job run.deadline prompts stage) :
    p.Underway setup { run with stage, due }
      ({ p' with prompts, stores }.putRun { run with stage, due }) where
  runs := by
    have hothers : p.runs.map (fun r =>
        if r.job.number = run.job.number then { run with stage, due } else r) = p.runs := by
      rw [List.map_congr_left fun other hother => if_neg (hnew other hother), List.map_id']
    show p'.runs.map _ = _
    rw [h.runs, List.map_append]
    exact congrArg₂ (· ++ ·) hothers (by simp)
  log := h.log
  store := h.store
  counters := h.counters
  pool := h.pool
  outcomes := h.outcomes
  stage := hstage

end Underway

/-! ## The end of a job -/

section Lawful

variable [LawfulStore σ]

/-- What a job with an outcome has done to the log, the prompts and the summaries. It succeeds
without a summary exactly if there are no new events. -/
structure Effects (setup : Setup) (p : Pipeline σ) (job : Job) (outcome : Outcome)
    (p' : Pipeline σ) : Prop where
  log : p'.log = p.log
  consulted : p.Consulted setup job p'.prompts
  idle : outcome = .succeeded none ↔ p.Idles setup job
  written : ∀ summary, outcome.summary? = some summary → p.Writes setup job summary
  stored : ∀ summary, outcome.summary? = some summary →
    LawfulStore.content p'.store job.scope = some summary
  kept : ∀ scope, scope ≠ job.scope ∨ outcome.summary? = none →
    LawfulStore.content p'.store scope = LawfulStore.content p.store scope

/-- What has changed by the end of a job besides: its outcome has been taken down, and its scope
counts anew if anything is known about it. -/
structure Aftermath (setup : Setup) (p : Pipeline σ) (job : Job) (byWorker : Bool)
    (outcome : Outcome) (p' : Pipeline σ) : Prop extends Effects setup p job outcome p' where
  runs : p'.runs = p.runs
  outcomes : p'.outcomes = p.outcomes ++ [(job.number, outcome)]
  pool : p'.pool = if byWorker then p.pool.map (·.record outcome) else p.pool
  known : ∀ scope, p'.counters.knows scope = p.counters.knows scope
  counted : p.counters.knows job.scope = true → p'.counters.snapshot job.scope =
    { p.counters.snapshot job.scope with
      events := 0
      tokens := 0
      windowStart := some (p'.now setup)
      inFlight := p.inFlight job.scope - if job.tracked then 1 else 0 }
  uncounted : ∀ scope, scope ≠ job.scope ∨ p.counters.knows job.scope = false →
    p'.counters.snapshot scope = p.counters.snapshot scope

/-- A job that began in `p` is over, or it makes so many more calls at most. -/
def Within (setup : Setup) (p : Pipeline σ) (job : Job) (byWorker : Bool) (n : Nat)
    (p' : Pipeline σ) : Prop :=
  (∃ outcome, p.Aftermath setup job byWorker outcome p') ∨
    ∃ run, p.Underway setup run p' ∧ run.job = job ∧ run.byWorker = byWorker ∧
      run.stage.callsLeft ≤ n

variable {setup : Setup} {p p' : Pipeline σ} {job : Job} {run : Run} {outcome : Outcome}

/-- A bound on the calls that are left may be raised. -/
theorem Within.mono {byWorker : Bool} {m n : Nat} (h : p.Within setup job byWorker n p')
    (hle : n ≤ m) : p.Within setup job byWorker m p' := by
  rcases h with hover | ⟨run, hunder, hjob, hworker, hcalls⟩
  · exact .inl hover
  · exact .inr ⟨run, hunder, hjob, hworker, Nat.le_trans hcalls hle⟩

/-- A job that has made no summary has left the store alone. -/
theorem effects_of_no_summary (hnone : outcome.summary? = none)
    (hidle : outcome = .succeeded none ↔ p.Idles setup job) (hlog : p'.log = p.log)
    (hkept : ∀ scope, LawfulStore.content p'.store scope = LawfulStore.content p.store scope)
    (hconsulted : p.Consulted setup job p'.prompts) :
    Effects setup p job outcome p' where
  log := hlog
  consulted := hconsulted
  idle := hidle
  written summary hsome := by rw [hnone] at hsome; cases hsome
  stored summary hsome := by rw [hnone] at hsome; cases hsome
  kept scope _ := hkept scope

/-- A job that has gone wrong has left the store alone. -/
theorem effects_of_trouble (htrouble : outcome.isTrouble = true) (hbusy : ¬ p.Idles setup job)
    (hlog : p'.log = p.log)
    (hkept : ∀ scope, LawfulStore.content p'.store scope = LawfulStore.content p.store scope)
    (hconsulted : p.Consulted setup job p'.prompts) : Effects setup p job outcome p' := by
  cases outcome with
  | succeeded summary => cases htrouble
  | failed reason =>
      exact effects_of_no_summary rfl (iff_of_false nofun hbusy) hlog hkept hconsulted
  | timedOut after =>
      exact effects_of_no_summary rfl (iff_of_false nofun hbusy) hlog hkept hconsulted

/-- What has been done stays when the job ends, and the rest of the aftermath comes of the end. -/
theorem Effects.finish (h : Effects setup p job outcome p') (byWorker : Bool)
    (hruns : p'.runs.filter (·.job.number != job.number) = p.runs)
    (hcounters : p'.counters = p.counters) (hpool : p'.pool = p.pool)
    (houtcomes : p'.outcomes = p.outcomes) :
    p.Aftermath setup job byWorker outcome (p'.finish setup job byWorker outcome) := by
  rw [finish_eq]
  have hsnapshot (scope : Scope) :=
    p'.counters.snapshot_job_over job.scope scope job.tracked (p'.now setup)
  refine { h with
    runs := hruns
    outcomes := congrArg (· ++ [(job.number, outcome)]) houtcomes
    pool := by rw [hpool]
    known := fun scope => ?_
    counted := fun hknown => ?_
    uncounted := fun scope hscope => ?_ }
  · rw [← hcounters]
    cases job.tracked <;> simp
  · refine (hsnapshot job.scope).trans ?_
    rw [hcounters, if_pos ⟨rfl, hknown⟩]
    rfl
  · refine (hsnapshot scope).trans ?_
    rw [hcounters]
    refine if_neg fun ⟨hsame, hknown⟩ => ?_
    rcases hscope with hne | hunknown
    · exact hne hsame
    · rw [hunknown] at hknown
      cases hknown

end Lawful

/-! ## The calls of a job -/

namespace Underway

variable [AtomicStore σ] {setup : Setup} {p p' : Pipeline σ} {run : Run}
  (h : p.Underway setup run p') (hnew : ∀ other ∈ p.runs, other.job.number ≠ run.job.number)
include h hnew

omit hnew in
/-- While a job goes on, what is stored for each scope stays the same. -/
theorem content_eq (scope : Scope) :
    LawfulStore.content p'.store scope = LawfulStore.content p.store scope := by rw [h.store]

/-- A job is over when its outcome has had its effects. -/
theorem finish {outcome : Outcome} {store : σ}
    (heffects : Effects setup p run.job outcome { p' with store }) (n : Nat) :
    p.Within setup run.job run.byWorker n
      ({ p' with store }.finish setup run.job run.byWorker outcome) :=
  .inl ⟨outcome, heffects.finish run.byWorker (h.others_eq hnew) h.counters h.pool h.outcomes⟩

/-- It may go wrong before it has loaded the last summary. -/
theorem fail_of_not_loads {outcome : Outcome} (htrouble : outcome.isTrouble = true)
    (hprompts : p'.prompts = p.prompts) (hnone : ∀ previous, ¬ p.Loads setup run.job previous)
    (n : Nat) :
    p.Within setup run.job run.byWorker n (p'.finish setup run.job run.byWorker outcome) :=
  h.finish hnew (effects_of_trouble htrouble (not_idles_of_not_loads hnone) h.log h.content_eq
    (hprompts ▸ consulted_of_not_loads hnone)) n

/-- Or it may go wrong when it has asked the model. -/
theorem fail_of_asks {outcome : Outcome} {prompt : String} (htrouble : outcome.isTrouble = true)
    (hprompts : p'.prompts = p.prompts ++ [prompt])
    (hasks : p.Asks setup run.job prompt) (n : Nat) :
    p.Within setup run.job run.byWorker n (p'.finish setup run.job run.byWorker outcome) :=
  h.finish hnew (effects_of_trouble htrouble hasks.not_idles h.log h.content_eq
    (hprompts ▸ hasks.consulted)) n

/-- When the last summary is there, the model is asked if there are new events. -/
theorem ask {previous : Option Summary} (hprompts : p'.prompts = p.prompts)
    (hinTime : ∃ deadline, setup.deadline? p.clock = some deadline ∧
      ((setup.link.load (p.loads + 1)).within p.clock deadline).ending = some (.value ()))
    (hload : SummaryStore.load p.store run.job.scope = .ok previous) :
    p.Within setup run.job run.byWorker 2 (p'.ask setup run previous) := by
  have hevents : p'.log.eventsAfter run.job.scope.session run.job.scope.filter
      (previous.map Summary.coveredUntil) = p.news run.job.scope previous := by
    rw [h.log]
    rfl
  unfold Pipeline.ask
  dsimp only
  rw [hevents]
  split
  · rename_i hlast
    have hidles : p.Idles setup run.job :=
      ⟨previous, ⟨hinTime, hload⟩, List.getLast?_eq_none_iff.1 hlast⟩
    exact h.finish hnew (effects_of_no_summary rfl (iff_of_true rfl hidles) h.log h.content_eq
      (hprompts ▸ hidles.consulted)) 2
  · rename_i last hlast
    have hnews : p.news run.job.scope previous ≠ [] := by
      intro hnone
      rw [← List.getLast?_eq_none_iff] at hnone
      cases hlast.symm.trans hnone
    let prompt := setup.template.render (previous.map Summary.text) (p.news run.job.scope previous)
    have hasks : p.Asks setup run.job prompt := ⟨previous, ⟨hinTime, hload⟩, hnews, rfl⟩
    have hstage : Reached setup p run.job run.deadline (p'.prompts ++ [prompt])
        (.asking last.id ((setup.summarizer.reply (p'.prompts.length + 1) prompt).within p'.clock
          run.deadline).ending) := by
      rw [hprompts]
      refine ⟨prompt, rfl, hasks, ?_, fun output hending => Reply.ending_of_within hending⟩
      rw [SessionLog.last_in_scope_of_events_after hlast, Option.map_some]
    exact .inr ⟨_, h.put_run hnew _ _ hstage, rfl, rfl, Nat.le_refl 2⟩

/-- When the last summary has been loaded, or not, the model is asked, or the job is over. -/
theorem loaded {ending : Option (Ending Unit)} (hstage : run.stage = .loading ending) :
    p.Within setup run.job run.byWorker 2 (p'.loaded setup run ending) := by
  have hreached := h.stage
  rw [hstage] at hreached
  obtain ⟨hprompts, hdeadline, hending⟩ := hreached
  have hlate (hne : ending ≠ some (.value ())) (previous : Option Summary) :
      ¬ p.Loads setup run.job previous := not_loads_of_ending hdeadline (hending ▸ hne)
  rcases ending with _ | (value | reason | message)
  · exact h.fail_of_not_loads hnew rfl hprompts (hlate nofun) 2
  · unfold Pipeline.loaded
    dsimp only
    rw [h.store]
    split
    · rename_i previous hload
      exact h.ask hnew hprompts ⟨run.deadline, hdeadline, hending.symm⟩ hload
    · rename_i f hload
      exact h.fail_of_not_loads hnew rfl hprompts (fun _ => not_loads_of_error hload) 2
  · exact h.fail_of_not_loads hnew rfl hprompts (hlate nofun) 2
  · exact h.fail_of_not_loads hnew rfl hprompts (hlate nofun) 2

/-- When the model has answered, or not, the summary is stored, or the job is over. -/
theorem answered {boundary : Nat} {ending : Option (Ending ModelOutput)}
    (hstage : run.stage = .asking boundary ending) :
    p.Within setup run.job run.byWorker 1 (p'.answered setup run boundary ending) := by
  have hreached := h.stage
  rw [hstage] at hreached
  obtain ⟨prompt, hprompts, hasks, hcovers, hanswer⟩ := hreached
  rcases ending with _ | (output | reason | message)
  · exact h.fail_of_asks hnew rfl hprompts hasks 1
  · unfold Pipeline.answered keep
    dsimp only
    split
    · exact h.fail_of_asks hnew rfl hprompts hasks 1
    · rename_i htext
      refine .inr ⟨_, h.put_run hnew _ _ ⟨prompt, hprompts, hasks, ?_, ?_, hcovers⟩, rfl, rfl,
        Nat.le_refl 1⟩
      · exact ⟨prompt, output, hasks, hanswer output rfl, rfl, rfl⟩
      · simpa using htext
  · exact h.fail_of_asks hnew rfl hprompts hasks 1
  · exact h.fail_of_asks hnew rfl hprompts hasks 1

/-- When the summary has been stored, or not, the job is over. -/
theorem stored {summary : Summary} {ending : Ending Unit}
    (hstage : run.stage = .storing summary ending) :
    p.Within setup run.job run.byWorker 0 (p'.stored setup run summary ending) := by
  have hreached := h.stage
  rw [hstage] at hreached
  obtain ⟨prompt, hprompts, hasks, hwrites⟩ := hreached
  have hconsulted : p.Consulted setup run.job p'.prompts := hprompts ▸ hasks.consulted
  rcases ending with value | reason | message
  · unfold Pipeline.stored
    dsimp only
    split
    · rename_i store hstore
      have heffects : Effects setup p run.job (.succeeded (some summary)) { p' with store } :=
        { log := h.log
          consulted := hconsulted
          idle := iff_of_false nofun hasks.not_idles
          written := fun written hsome => Option.some.inj hsome ▸ hwrites
          stored := fun written hsome => Option.some.inj hsome ▸ AtomicStore.content_store_ok hstore
          kept := fun scope hscope => by
            have hother := LawfulStore.content_store_of_ne p'.store summary
              (hscope.resolve_right (Option.some_ne_none summary))
            rwa [hstore, h.store] at hother }
      exact h.finish hnew heffects 0
    · rename_i f store hstore
      have hkept (scope : Scope) : LawfulStore.content store scope =
          LawfulStore.content p.store scope :=
        h.store ▸ AtomicStore.content_eq_of_error hstore scope
      have heffects : Effects setup p run.job (.failed f.message) { p' with store } :=
        effects_of_trouble rfl hasks.not_idles h.log hkept hconsulted
      exact h.finish hnew heffects 0
  · exact h.fail_of_asks hnew rfl hprompts hasks 0
  · exact h.fail_of_asks hnew rfl hprompts hasks 0

/-- So each call takes a job to its end or to a later call. -/
theorem resume : p.Within setup run.job run.byWorker (run.stage.callsLeft - 1)
    (p'.resume setup run) := by
  unfold Pipeline.resume
  split
  · rename_i ending hstage
    rw [hstage]
    exact h.loaded hnew hstage
  · rename_i boundary ending hstage
    rw [hstage]
    exact h.answered hnew hstage
  · rename_i summary ending hstage
    rw [hstage]
    exact h.stored hnew hstage

end Underway

/-! ## The begin of a job -/

/-- A job begins with its first call, or it is over at once because the clock does not go so far. -/
theorem within_begin [AtomicStore σ] (setup : Setup) (p : Pipeline σ) (job : Job) (byWorker : Bool)
    (hnew : ∀ other ∈ p.runs, other.job.number ≠ job.number) :
    p.Within setup job byWorker 3 (p.begin setup job byWorker) := by
  unfold begin
  split
  · rename_i hdeadline
    have hnone (previous : Option Summary) : ¬ p.Loads setup job previous := by
      rintro ⟨⟨deadline, hsome, -⟩, -⟩
      cases hdeadline.symm.trans hsome
    have heffects :
        Effects setup p job (brokenDown (some "overflow when adding duration to instant")) p :=
      effects_of_trouble rfl (not_idles_of_not_loads hnone) rfl (fun _ => rfl)
        (consulted_of_not_loads hnone)
    have hothers : p.runs.filter (·.job.number != job.number) = p.runs :=
      List.filter_eq_self.2 fun other hother => by simpa using hnew other hother
    exact .inl ⟨_, heffects.finish byWorker hothers rfl rfl rfl⟩
  · rename_i deadline hdeadline
    refine .inr ⟨_, ⟨rfl, rfl, rfl, rfl, rfl, rfl, ?_⟩, rfl, rfl, Nat.le_refl 3⟩
    exact ⟨rfl, hdeadline, rfl⟩

end Pipeline

end Transcript
