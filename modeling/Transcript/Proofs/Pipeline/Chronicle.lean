import Mathlib.Logic.Function.Basic
import Mathlib.Logic.Relation
import Transcript.Proofs.Pipeline.Quiet
import Transcript.Proofs.Session.Numbering
import Transcript.Proofs.Store.Lawful

/-!
# What went into the summaries

A summary is a text, from which nobody can tell what it was made of. A `Chronicle` is a pipeline
with a record of that: of each prompt, of the summaries that the jobs have loaded, and of the
prompts that lead up to each summary. The record is only written, so it changes nothing about the
pipeline.

`Chronicle.Step` is one step of a pipeline under any schedule. Here the load of the last summary and
the look at the log that follows are steps of their own, as are the effect of a store and the end of
its job, so other jobs and new events may come between them. Calls may take any time and end in any
way, and jobs may be given up at any point.
-/

namespace Transcript

/-- The number up to which a summary covers the events of its scope, which is 0 if there is none. -/
def coverage (summary : Option Summary) : Nat := (summary.map Summary.coveredUntil).getD 0

/-- What a prompt was made of: the scope of the job, the summary that the job had loaded, and the
events that the prompt tells. `epoch` is the number of times that the session had been removed. -/
structure Batch where
  scope : Scope
  epoch : Nat
  previous : Option Summary
  events : List Event

namespace Batch

/-- The number behind which the events of the batch begin. -/
def after (b : Batch) : Nat := coverage b.previous

/-- The number of the last event of the batch. -/
def boundary (b : Batch) : Nat := (b.events.getLast?.map Event.id).getD 0

/-- The prompt that is made of the batch. -/
def prompt (template : PromptTemplate) (b : Batch) : String :=
  template.render (b.previous.map Summary.text) b.events

end Batch

/-- The events of some batches, the earliest batch of which comes last. -/
def folded : List Batch → List Event
  | [] => []
  | b :: earlier => folded earlier ++ b.events

/-- A summary, if there is one, and the batches that went into it, the latest first. -/
structure Sourced where
  summary : Option Summary
  batches : List Batch

/-- A pipeline, and what has gone into its summaries. `epoch` counts the removals of each session,
and `rendered` tells what the prompts were made of, one by one. `loaded` is what each job has
loaded, `asked` the batches that go into the summary that it has asked for, and `stored` the batches
that went into the stored summary of each scope. -/
structure Chronicle (σ : Type) where
  pipeline : Pipeline σ
  epoch : SessionKey → Nat := fun _ => 0
  rendered : List Batch := []
  loaded : Job → Option Sourced := fun _ => none
  asked : Job → List Batch := fun _ => []
  stored : Scope → List Batch := fun _ => []

namespace Chronicle

variable {σ : Type}

/-- A pipeline in which nothing has happened yet. -/
def initial (store : σ) (pool : Option Pool) : Chronicle σ where
  pipeline := { store, pool }

/-- The events of a scope. -/
def inScope (c : Chronicle σ) (scope : Scope) : List Event := c.pipeline.log.inScope scope

/-- What a job asks about when it has loaded a summary and now looks at the log. -/
def batch (c : Chronicle σ) (scope : Scope) (previous : Option Summary) : Batch where
  scope := scope
  epoch := c.epoch scope.session
  previous := previous
  events :=
    c.pipeline.log.eventsAfter scope.session scope.filter (previous.map Summary.coveredUntil)

/-- The chronicle after a step of the pipeline that is not worth a record. -/
def move (c : Chronicle σ) (p : Pipeline σ) : Chronicle σ := { c with pipeline := p }

@[simp] theorem move_rendered (c : Chronicle σ) (p : Pipeline σ) :
    (c.move p).rendered = c.rendered := rfl

@[simp] theorem move_epoch (c : Chronicle σ) (p : Pipeline σ) : (c.move p).epoch = c.epoch := rfl

/-- The chronicle after an event. -/
def append (c : Chronicle σ) (key : SessionKey) (e : Event) : Chronicle σ :=
  c.move { c.pipeline with log := c.pipeline.log.append key e }

/-- The chronicle after a session was removed. -/
def remove (c : Chronicle σ) (key : SessionKey) : Chronicle σ :=
  { c with
    pipeline := { c.pipeline with log := c.pipeline.log.remove key }
    epoch := Function.update c.epoch key (c.epoch key + 1) }

variable [SummaryStore σ] [LawfulStore σ]

/-- The summary that is stored for a scope. -/
def content (c : Chronicle σ) (scope : Scope) : Option Summary :=
  LawfulStore.content c.pipeline.store scope

/-- The chronicle after a job has loaded the last summary of its scope. -/
def load (c : Chronicle σ) (job : Job) : Chronicle σ :=
  { c with
    loaded := Function.update c.loaded job (some ⟨c.content job.scope, c.stored job.scope⟩) }

/-- The chronicle after a run has asked the model, with what its job has loaded. -/
def ask (setup : Setup) (c : Chronicle σ) (run : Run) (source : Sourced) : Chronicle σ :=
  let batch := c.batch run.job.scope source.summary
  { c with
    pipeline := c.pipeline.ask setup run source.summary
    rendered := c.rendered ++ [batch]
    asked := Function.update c.asked run.job (batch :: source.batches) }

/-- The chronicle after a summary was stored, if the store has come to keep it. -/
def store (c : Chronicle σ) (job : Job) (summary : Summary) : Chronicle σ :=
  let store := (SummaryStore.store c.pipeline.store job.scope summary).2
  { c with
    pipeline := { c.pipeline with store }
    stored :=
      if LawfulStore.content store job.scope = some summary then
        Function.update c.stored job.scope (c.asked job)
      else c.stored }

/-- One step of a pipeline, under any schedule. An event comes in (`append`), or a session is
removed. For a job, the call to load the last summary takes effect (`load`), the model is asked
about the events behind that summary, if there are any (`ask`), it has answered (`answer`), and the
call to store the new summary takes effect (`store`). Everything else is `quiet`: a job is made,
begins or ends, time goes by, a worker comes or goes. -/
inductive Step (setup : Setup) : Chronicle σ → Chronicle σ → Prop where
  | append (c : Chronicle σ) (key : SessionKey) (e : Event) : Step setup c (c.append key e)
  | remove (c : Chronicle σ) (key : SessionKey) : Step setup c (c.remove key)
  | load (c : Chronicle σ) {run : Run} {found : Option Summary} (hrun : run ∈ c.pipeline.runs)
      (hstage : run.stage.boundary? = none)
      (hload : SummaryStore.load c.pipeline.store run.job.scope = .ok found) :
      Step setup c (c.load run.job)
  | ask (c : Chronicle σ) {run : Run} {source : Sourced} (hrun : run ∈ c.pipeline.runs)
      (hstage : run.stage.boundary? = none) (hsource : c.loaded run.job = some source)
      (hevents : (c.batch run.job.scope source.summary).events ≠ []) :
      Step setup c (c.ask setup run source)
  | answer (c : Chronicle σ) {run : Run} {boundary : Nat} {ending : Option (Ending ModelOutput)}
      (output : ModelOutput) (hrun : run ∈ c.pipeline.runs)
      (hstage : run.stage = .asking boundary ending) :
      Step setup c (c.move (c.pipeline.keep setup run boundary output))
  | store (c : Chronicle σ) {run : Run} {summary : Summary} {ending : Ending Unit}
      (hrun : run ∈ c.pipeline.runs) (hstage : run.stage = .storing summary ending) :
      Step setup c (c.store run.job summary)
  | quiet (c : Chronicle σ) {p : Pipeline σ} (hquiet : c.pipeline.Quiet p) :
      Step setup c (c.move p)

/-- Some steps of a pipeline, one after the other. -/
def Steps (setup : Setup) : Chronicle σ → Chronicle σ → Prop := Relation.ReflTransGen (Step setup)

end Chronicle

end Transcript
