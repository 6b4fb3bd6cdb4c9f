import Transcript.Proofs.Pipeline.Outturn

/-!
# The moves of a job

A job makes a move whenever a call is over that it waits for. In a move it goes on to its next call
(`Pipeline.GoesOn`) or it ends (`Pipeline.Ends`). What its calls come to, whatever time they take,
are its `Responses`, and these tell the outcome if its time does not run out.
-/

namespace Transcript

/-! ## Calls with a deadline -/

namespace Reply

variable {α : Type} {r : Reply α} {now deadline : Nat}

/-- A call that would last until after the deadline is given up then. -/
theorem within_of_late (hnow : now ≤ deadline) (hlate : deadline < now + r.delay) :
    r.within now deadline = ⟨deadline, none⟩ := by
  unfold within
  rw [if_neg (by omega), if_pos hlate, Nat.max_eq_right hnow]

/-- One that is over by then ends as it does. -/
theorem within_in_time (hdue : now + r.delay ≤ deadline) :
    r.within now deadline = ⟨now + r.delay, some r.ending⟩ := by
  unfold within
  split
  · rename_i hdelay
    rw [hdelay, Nat.add_zero]
  · rw [if_neg (Nat.not_lt.2 hdue)]

end Reply

/-- The deadline of a job that begins now, if the clock goes so far. -/
theorem Setup.deadline_eq {setup : Setup} {clock : Nat} (h : setup.deadline? clock ≠ none) :
    setup.deadline? clock = some (clock + setup.timeout.milliseconds) := by
  unfold deadline? at h ⊢
  split at h
  · rename_i hrange
    rw [if_pos hrange]
  · exact absurd rfl h

/-! ## Outcomes -/

/-- How a call ends that has to be let through before it comes to what it is for. -/
def Ending.through {α : Type} : Ending Unit → Except Failure α → Ending α
  | .value (), .ok a => .value a
  | .value (), .error f => .error f.message
  | .error reason, _ => .error (Failure.store reason).message
  | .panic message, _ => .panic message

/-- What becomes of the calls of a job, whatever time they take. -/
structure Responses where
  /-- How the last summary is loaded. -/
  loaded : Ending (Option Summary)
  /-- The events that have come since a summary. -/
  news : Option Summary → List Event
  /-- How the model answers if it is asked about these. -/
  answer : Option Summary → Ending ModelOutput
  /-- When it has answered. -/
  answeredAt : Timestamp
  /-- How a new summary is stored. -/
  stored : Summary → Ending Unit

namespace Responses

/-- The outcome of a job that has a new summary to store. -/
def outcomeOfStore (summary : Summary) : Ending Unit → Outcome
  | .value () => .succeeded (some summary)
  | .error reason => .failed reason
  | .panic message => Pipeline.brokenDown message

/-- The outcome of a job that has asked a model about the events up to a boundary. -/
def outcomeOfAnswer (name : String) (boundary : Nat) (time : Timestamp)
    (stored : Summary → Ending Unit) : Ending ModelOutput → Outcome
  | .value output =>
    let text := Text.trim output.text
    if text.isEmpty then .failed (name ++ " returned an empty summary")
    else
      let summary : Summary := ⟨text, boundary, time, output.usage⟩
      outcomeOfStore summary (stored summary)
  | .error reason => .failed reason
  | .panic message => Pipeline.brokenDown message

/-- The outcome of a job whose time does not run out. -/
def outcome (r : Responses) (name : String) : Outcome :=
  match r.loaded with
  | .value previous =>
    match (r.news previous).getLast? with
    | none => .succeeded none
    | some last => outcomeOfAnswer name last.id r.answeredAt r.stored (r.answer previous)
  | .error reason => .failed ("loading previous summary: " ++ reason)
  | .panic message => Pipeline.brokenDown message

/-- The prompts that it gives the model: one about all that is new, or none if nothing is. -/
def prompts (r : Responses) (t : PromptTemplate) : List String :=
  match r.loaded with
  | .value previous =>
    if r.news previous = [] then [] else [t.render (previous.map Summary.text) (r.news previous)]
  | _ => []

variable {r : Responses} {previous : Option Summary}

/-- If there is something new, the outcome is told by how the model answers. -/
theorem outcome_of_news {last : Event} (name : String) (hloaded : r.loaded = .value previous)
    (hlast : (r.news previous).getLast? = some last) :
    r.outcome name = outcomeOfAnswer name last.id r.answeredAt r.stored (r.answer previous) := by
  unfold outcome
  simp only [hloaded, hlast]

/-- If nothing is new, there is nothing to do. -/
theorem outcome_of_no_news (name : String) (hloaded : r.loaded = .value previous)
    (hnone : r.news previous = []) : r.outcome name = .succeeded none := by
  unfold outcome
  simp only [hloaded, hnone, List.getLast?_nil]

/-- If there is something new, the model is given one prompt about it. -/
theorem prompts_of_news (t : PromptTemplate) (hloaded : r.loaded = .value previous)
    (hnews : r.news previous ≠ []) :
    r.prompts t = [t.render (previous.map Summary.text) (r.news previous)] := by
  unfold prompts
  simp only [hloaded, hnews, if_false]

/-- If nothing is new, it is given none. -/
theorem prompts_of_no_news (t : PromptTemplate)
    (hnone : ∀ previous, r.loaded = .value previous → r.news previous = []) : r.prompts t = [] := by
  unfold prompts
  split
  · rename_i previous hloaded
    rw [if_pos (hnone previous hloaded)]
  · rfl

/-- A call to store a summary does not time out. -/
theorem outcome_of_store_ne (summary : Summary) (ending : Ending Unit) (after : Span) :
    outcomeOfStore summary ending ≠ .timedOut after := by
  cases ending <;> exact nofun

/-- Nor does a job that has an answer. -/
theorem outcome_of_answer_ne (name : String) (boundary : Nat) (time : Timestamp)
    (stored : Summary → Ending Unit) (ending : Ending ModelOutput) (after : Span) :
    outcomeOfAnswer name boundary time stored ending ≠ .timedOut after := by
  unfold outcomeOfAnswer
  split
  · dsimp only
    split
    · exact nofun
    · exact outcome_of_store_ne _ _ after
  · exact nofun
  · exact nofun

/-- So how the calls end tells no timeout. -/
theorem outcome_ne_timed_out (r : Responses) (name : String) (after : Span) :
    r.outcome name ≠ .timedOut after := by
  unfold outcome
  split
  · split
    · exact nofun
    · exact outcome_of_answer_ne _ _ _ _ _ after
  · exact nofun
  · exact nofun

end Responses

namespace Pipeline

variable {σ : Type}

/-! ## The run of a job -/

section Run

variable {setup : Setup} {p : Pipeline σ} {number : Nat} {run : Run}

/-- The run that is put in is found in its place. -/
theorem run_put_run (hrun : p.run? number = some run) {new : Run} (hnew : new.job.number = number) :
    (p.putRun new).run? number = some new := by
  subst hnew
  have hnumber : run.job.number = new.job.number := by simpa using List.find?_some hrun
  have hsame : (fun r : Run => r.job.number == new.job.number) ∘
      (fun r => if r.job.number = new.job.number then new else r) =
        fun r => r.job.number == new.job.number := by
    funext r
    by_cases hr : r.job.number = new.job.number
    · simp [hr]
    · simp [hr]
  have hfound : p.runs.find? (fun r => r.job.number == new.job.number) = some run := hrun
  show (p.runs.map _).find? _ = some new
  rw [List.find?_map, hsame, hfound, Option.map_some, if_pos hnumber]

/-- A job that has ended does not run. -/
theorem run_finish (setup : Setup) (p : Pipeline σ) (job : Job) (byWorker : Bool)
    (outcome : Outcome) : (p.finish setup job byWorker outcome).run? job.number = none := by
  rw [finish_eq]
  show (p.runs.filter _).find? _ = none
  rw [List.find?_filter, List.find?_eq_none]
  simp

variable [SummaryStore σ]

/-- When the call is over that a run waits for, it goes on. -/
theorem advance_of_due (hrun : p.run? number = some run) (hdue : run.due ≤ p.clock) :
    p.advance setup number = p.resume setup run := by
  unfold advance
  simp only [hrun, hdue, if_true]

/-- A job that has ended does nothing any more. -/
theorem advance_of_over (hover : p.run? number = none) : p.advance setup number = p := by
  unfold advance
  rw [hover]

end Run

/-! ## The moves of a job -/

/-- A move in which a job ends. -/
structure Ends (job : Job) (outcome : Outcome) (p p' : Pipeline σ) : Prop where
  prompts : p'.prompts = p.prompts
  outcomes : p'.outcomes = p.outcomes ++ [(job.number, outcome)]
  run : p'.run? job.number = none

/-- A move in which a job goes on to its next call. -/
structure GoesOn (next : Run) (p p' : Pipeline σ) : Prop where
  run : p'.run? next.job.number = some next
  clock : p'.clock = p.clock
  outcomes : p'.outcomes = p.outcomes
  store : p'.store = p.store

/-- What a move leaves alone in which a job does not call the store to store something. -/
structure Unstored (p p' : Pipeline σ) : Prop where
  store : p'.store = p.store
  stores : p'.stores = p.stores

/-- The prompt about the events of a scope that have come since a summary. -/
def prompt (setup : Setup) (p : Pipeline σ) (scope : Scope) (previous : Option Summary) : String :=
  setup.template.render (previous.map Summary.text) (p.news scope previous)

/-- How the call goes by which a job that begins now loads the last summary. -/
def loadReply (setup : Setup) (p : Pipeline σ) : Reply Unit := setup.link.load (p.loads + 1)

/-- How the model answers if it is asked now. -/
def answerReply (setup : Setup) (p : Pipeline σ) (scope : Scope) (previous : Option Summary) :
    Reply ModelOutput :=
  setup.summarizer.reply (p.prompts.length + 1) (p.prompt setup scope previous)

section Moves

variable {setup : Setup} {p : Pipeline σ} {run : Run}

/-- To finish a job is to end it. -/
theorem ends_finish (setup : Setup) (p : Pipeline σ) (job : Job) (byWorker : Bool)
    (outcome : Outcome) : Ends job outcome p (p.finish setup job byWorker outcome) where
  prompts := prompts_finish ..
  outcomes := outcomes_finish ..
  run := run_finish ..

/-- The end of a job does not call the store. -/
theorem unstored_finish (setup : Setup) (p : Pipeline σ) (job : Job) (byWorker : Bool)
    (outcome : Outcome) : Unstored p (p.finish setup job byWorker outcome) := by
  rw [finish_eq]
  exact ⟨rfl, rfl⟩

/-- A job goes on when another run is put in the place of its run. -/
theorem goes_on_put_run (next : Run) (hrun : p.run? next.job.number = some run)
    (prompts : List String) (stores : Nat) :
    GoesOn next p ({ p with prompts, stores }.putRun next) :=
  ⟨run_put_run hrun rfl, rfl, rfl, rfl⟩

/-- A job that begins loads the last summary. -/
theorem goes_on_begin {job : Job} (byWorker : Bool) {deadline : Nat}
    (hnew : p.run? job.number = none) (hdeadline : setup.deadline? p.clock = some deadline) :
    let call := (p.loadReply setup).within p.clock deadline
    let p' := p.begin setup job byWorker
    p'.prompts = p.prompts ∧ p'.stores = p.stores ∧
      ∃ loading : Run, loading.job = job ∧ loading.deadline = deadline ∧ loading.due = call.due ∧
        loading.stage = .loading call.ending ∧ GoesOn loading p p' := by
  intro call p'
  have hbegin : p' = { p with
      loads := p.loads + 1
      runs := p.runs ++ [⟨job, byWorker, deadline, .loading call.ending, call.due⟩] } := by
    show p.begin setup job byWorker = _
    unfold begin
    rw [hdeadline]
    rfl
  rw [hbegin]
  refine ⟨rfl, rfl, ⟨job, byWorker, deadline, .loading call.ending, call.due⟩, rfl,
    rfl, rfl, rfl, ?_⟩
  refine ⟨?_, rfl, rfl, rfl⟩
  have hnone : p.runs.find? (·.job.number == job.number) = none := hnew
  show (p.runs ++ [_]).find? _ = _
  rw [List.find?_append, hnone, Option.none_or]
  simp

/-- If there are new events it asks the model about them. -/
theorem goes_on_ask (setup : Setup) {previous : Option Summary} {last : Event}
    (hrun : p.run? run.job.number = some run)
    (hlast : (p.news run.job.scope previous).getLast? = some last) :
    let call := (p.answerReply setup run.job.scope previous).within p.clock run.deadline
    let p' := p.ask setup run previous
    p'.prompts = p.prompts ++ [p.prompt setup run.job.scope previous] ∧ p'.stores = p.stores ∧
      ∃ asking : Run, asking.job = run.job ∧ asking.due = call.due ∧
        asking.stage = .asking last.id call.ending ∧ GoesOn asking p p' := by
  intro call p'
  let asking : Run := { run with stage := .asking last.id call.ending, due := call.due }
  have hask : p' = { p with prompts := p.prompts ++ [p.prompt setup run.job.scope previous] }.putRun
      asking := p.ask_eq setup run previous hlast
  rw [hask]
  exact ⟨rfl, rfl, asking, rfl, rfl, rfl, goes_on_put_run asking hrun _ _⟩

/-- Otherwise it ends at once. -/
theorem ask_of_no_news {previous : Option Summary} (hnone : p.news run.job.scope previous = []) :
    p.ask setup run previous = p.finish setup run.job run.byWorker (.succeeded none) := by
  unfold ask
  unfold news at hnone
  simp only [hnone, List.getLast?_nil]

/-- An answer that is not blank makes a summary, and the job has it stored. -/
theorem goes_on_keep (setup : Setup) (hrun : p.run? run.job.number = some run) (boundary : Nat)
    {output : ModelOutput} (htext : (Text.trim output.text).isEmpty = false) :
    let p' := p.keep setup run boundary output
    let reply := setup.link.store (p.stores + 1)
    p'.prompts = p.prompts ∧ ∃ storing : Run, storing.job = run.job ∧
      storing.due = p.clock + reply.delay ∧
      storing.stage =
        .storing ⟨Text.trim output.text, boundary, p.now setup, output.usage⟩ reply.ending ∧
      GoesOn storing p p' := by
  intro p' reply
  let storing : Run :=
    { run with
      stage := .storing ⟨Text.trim output.text, boundary, p.now setup, output.usage⟩ reply.ending
      due := p.clock + reply.delay }
  have hkeep : p' = { p with stores := p.stores + 1 }.putRun storing := by
    show p.keep setup run boundary output = _
    unfold keep
    simp only [htext, Bool.false_eq_true, if_false]
    rfl
  rw [hkeep]
  exact ⟨rfl, storing, rfl, rfl, rfl, goes_on_put_run storing hrun _ _⟩

variable [SummaryStore σ]

/-- How a job goes on when the last summary has been loaded, or not. -/
theorem loaded_eq (setup : Setup) (p : Pipeline σ) (run : Run) (ending : Ending Unit) :
    p.loaded setup run (some ending) =
      match ending.through (SummaryStore.load p.store run.job.scope) with
      | .value previous => p.ask setup run previous
      | .error reason =>
        p.finish setup run.job run.byWorker (.failed ("loading previous summary: " ++ reason))
      | .panic message => p.finish setup run.job run.byWorker (brokenDown message) := by
  cases ending with
  | value =>
      unfold loaded
      dsimp only
      cases SummaryStore.load p.store run.job.scope <;> rfl
  | error reason => rfl
  | panic message => rfl

/-- The job ends when its summary has been stored, or not. -/
theorem ends_stored (setup : Setup) (p : Pipeline σ) (run : Run) (summary : Summary)
    (ending : Ending Unit) :
    Ends run.job
      (Responses.outcomeOfStore summary
        (ending.through (SummaryStore.store p.store run.job.scope summary).1))
      p (p.stored setup run summary ending) := by
  cases ending with
  | value =>
      unfold stored
      dsimp only
      generalize SummaryStore.store p.store run.job.scope summary = result
      obtain ⟨answer, store⟩ := result
      cases answer with
      | ok =>
          have hends :=
            ends_finish setup { p with store } run.job run.byWorker (.succeeded (some summary))
          exact ⟨hends.prompts, hends.outcomes, hends.run⟩
      | error f =>
          have hends := ends_finish setup { p with store } run.job run.byWorker (.failed f.message)
          exact ⟨hends.prompts, hends.outcomes, hends.run⟩
  | error reason => exact ends_finish ..
  | panic message => exact ends_finish ..

end Moves

end Pipeline

end Transcript
