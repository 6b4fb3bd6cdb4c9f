import Transcript.Job.Call
import Transcript.Pipeline.Pool
import Transcript.Session.Log
import Transcript.Summary.Basic
import Transcript.Text.Blank
import Transcript.Trigger.Counters

/-!
# The pipeline of summaries

A `Pipeline` holds everything that summaries are made from and everything that is under way. It
changes in small steps: a job begins, a call that a run waits for is over, a worker takes a job from
the queue, an event comes in. A step takes no time, and it is never interrupted; which of the
possible steps comes next is left open here. `Transcript.Pipeline.Timeline` puts them in order.

A run makes at most three calls: it loads the last summary, asks the model, and stores the new
summary. The first two share a deadline, the third has none.
-/

namespace Transcript

/-- What stays the same while a pipeline runs. -/
structure Setup where
  /-- The model that writes the summaries. -/
  summarizer : Summarizer
  /-- The way to the store. -/
  link : Link := {}
  /-- The template of the prompts. -/
  template : PromptTemplate := {}
  /-- The time that a job has to load the last summary and to ask the model. -/
  timeout : Span
  /-- When the pipeline is set up. -/
  start : Timestamp
  /-- What the clock of the machine shows then. Where it counts from is up to the machine. -/
  origin : Span := .ofSeconds 1

namespace Setup

/-- The point in time that lies so many milliseconds behind the start. -/
def timeAt (s : Setup) (clock : Nat) : Timestamp := s.start.add (.ofMilliseconds clock)

/-- What the clock of the machine shows so many milliseconds after the start. -/
def reading (s : Setup) (clock : Nat) : Span := s.origin + .ofMilliseconds clock

/-- The clock of a machine counts up to this number of seconds. -/
def clockLimit : Nat := 0x8000000000000000

/-- The millisecond at which the time of a job runs out that starts now, if the clock of the machine
goes so far. -/
def deadline? (s : Setup) (clock : Nat) : Option Nat :=
  if (s.reading clock + s.timeout).seconds < clockLimit then some (clock + s.timeout.milliseconds)
  else none

end Setup

/-- The call that a run waits for, with what is known by then. -/
inductive Stage where
  /-- The last summary is being loaded. -/
  | loading (ending : Option (Ending Unit))
  /-- The model is being asked about the events up to a boundary. -/
  | asking (boundary : Nat) (ending : Option (Ending ModelOutput))
  /-- The new summary is being stored. -/
  | storing (summary : Summary) (ending : Ending Unit)

/-- A job that runs. -/
structure Run where
  /-- The job. -/
  job : Job
  /-- Whether a worker of the pool runs it. -/
  byWorker : Bool
  /-- The millisecond at which its time runs out. -/
  deadline : Nat
  /-- The call that it waits for. -/
  stage : Stage
  /-- The millisecond at which the call is over. -/
  due : Nat

/-- What summaries are made from, and what is under way. -/
structure Pipeline (σ : Type) where
  /-- The milliseconds since the start. -/
  clock : Nat := 0
  /-- The events. -/
  log : SessionLog := {}
  /-- What has happened in each scope. -/
  counters : TriggerCounters Scope.place := {}
  /-- The summaries. -/
  store : σ
  /-- The number of jobs that were made. -/
  created : Nat := 0
  /-- The number of calls to load a summary. -/
  loads : Nat := 0
  /-- The number of calls to store a summary. -/
  stores : Nat := 0
  /-- The prompts that the model was given. -/
  prompts : List String := []
  /-- The jobs that run. -/
  runs : List Run := []
  /-- The pool of workers, if there is one. -/
  pool : Option Pool := none
  /-- The outcomes of the jobs that have ended, by number. -/
  outcomes : List (Nat × Outcome) := []
  /-- The number of warnings. -/
  warnings : Nat := 0

namespace Pipeline

variable {σ : Type} [SummaryStore σ]

/-- The point in time that the clock shows. -/
def now (setup : Setup) (p : Pipeline σ) : Timestamp := setup.timeAt p.clock

/-- The pipeline with its pool changed, if it has one. -/
def onPool (p : Pipeline σ) (f : Pool → Pool) : Pipeline σ := { p with pool := p.pool.map f }

/-- The pipeline after a warning. -/
def warn (p : Pipeline σ) : Pipeline σ := { p with warnings := p.warnings + 1 }

/-- The outcome of the job of a number, if it has ended. -/
def outcome? (p : Pipeline σ) (number : Nat) : Option Outcome := p.outcomes.lookup number

/-- The run of the job of a number. -/
def run? (p : Pipeline σ) (number : Nat) : Option Run := p.runs.find? (·.job.number == number)

/-- The jobs that wait. -/
def queue (p : Pipeline σ) : List Job := (p.pool.map Pool.queue).getD []

/-- The number of workers that run a job. -/
def busy (p : Pipeline σ) : Nat := p.runs.countP Run.byWorker

/-! ## Jobs -/

/-- A new job, and the pipeline that knows its number. -/
def newJob (setup : Setup) (p : Pipeline σ) (scope : Scope) (tracked : Bool) : Job × Pipeline σ :=
  (⟨p.created + 1, scope, p.now setup, tracked⟩, { p with created := p.created + 1 })

/-- Takes a job out of the count of its scope, if it is in there. -/
def untrack (p : Pipeline σ) (job : Job) : Pipeline σ :=
  if job.tracked then { p with counters := p.counters.endJob job.scope } else p

/-- Gives up a job that will never run. -/
def release (p : Pipeline σ) (job : Job) : Pipeline σ := p.untrack job

/-- Takes the outcome down, and a warning if it is trouble. -/
def note (p : Pipeline σ) (job : Job) (outcome : Outcome) : Pipeline σ :=
  { p with
    outcomes := p.outcomes ++ [(job.number, outcome)]
    warnings := p.warnings + if outcome.isTrouble then 1 else 0 }

/-- Ends a job: its scope starts to count anew, whatever the outcome. -/
def finish (setup : Setup) (p : Pipeline σ) (job : Job) (byWorker : Bool) (outcome : Outcome) :
    Pipeline σ :=
  let p := { p with
    runs := p.runs.filter (·.job.number != job.number)
    counters := p.counters.reset job.scope (p.now setup) }
  let p := (p.untrack job).note job outcome
  if byWorker then p.onPool (·.record outcome) else p

/-- The outcome of a job whose run broke down. -/
def brokenDown (message : Option String) : Outcome :=
  .failed ("summary job panicked: " ++ panicText message)

/-! ## Runs -/

/-- Puts a run in the place of the one for the same job. -/
def putRun (p : Pipeline σ) (run : Run) : Pipeline σ :=
  { p with runs := p.runs.map fun r => if r.job.number = run.job.number then run else r }

/-- Starts to run a job with the call to load the last summary. -/
def begin (setup : Setup) (p : Pipeline σ) (job : Job) (byWorker : Bool) : Pipeline σ :=
  match setup.deadline? p.clock with
  | none =>
    p.finish setup job byWorker (brokenDown (some "overflow when adding duration to instant"))
  | some deadline =>
    let call := (setup.link.load (p.loads + 1)).within p.clock deadline
    { p with
      loads := p.loads + 1
      runs := p.runs ++ [⟨job, byWorker, deadline, .loading call.ending, call.due⟩] }

/-- Asks the model about the events that come after the last summary. -/
def ask (setup : Setup) (p : Pipeline σ) (run : Run) (previous : Option Summary) : Pipeline σ :=
  let scope := run.job.scope
  let events := p.log.eventsAfter scope.session scope.filter (previous.map Summary.coveredUntil)
  match events.getLast? with
  | none => p.finish setup run.job run.byWorker (.succeeded none)
  | some last =>
    let prompt := setup.template.render (previous.map Summary.text) events
    let call := (setup.summarizer.reply (p.prompts.length + 1) prompt).within p.clock run.deadline
    { p with prompts := p.prompts ++ [prompt] }.putRun
      { run with stage := .asking last.id call.ending, due := call.due }

/-- Stores the summary that the model has written. -/
def keep (setup : Setup) (p : Pipeline σ) (run : Run) (boundary : Nat) (output : ModelOutput) :
    Pipeline σ :=
  let text := Text.trim output.text
  if text.isEmpty then
    p.finish setup run.job run.byWorker
      (.failed (setup.summarizer.name ++ " returned an empty summary"))
  else
    let reply := setup.link.store (p.stores + 1)
    let summary : Summary := ⟨text, boundary, p.now setup, output.usage⟩
    { p with stores := p.stores + 1 }.putRun
      { run with stage := .storing summary reply.ending, due := p.clock + reply.delay }

/-- Goes on with a run after the last summary has been loaded, or not. -/
def loaded (setup : Setup) (p : Pipeline σ) (run : Run) : Option (Ending Unit) → Pipeline σ
  | none => p.finish setup run.job run.byWorker (.timedOut setup.timeout)
  | some (.panic message) => p.finish setup run.job run.byWorker (brokenDown message)
  | some (.error reason) =>
    p.finish setup run.job run.byWorker
      (.failed ("loading previous summary: " ++ (Failure.store reason).message))
  | some (.value ()) =>
    match SummaryStore.load p.store run.job.scope with
    | .ok previous => p.ask setup run previous
    | .error f =>
      p.finish setup run.job run.byWorker (.failed ("loading previous summary: " ++ f.message))

/-- Goes on with a run after the model has answered, or not. -/
def answered (setup : Setup) (p : Pipeline σ) (run : Run) (boundary : Nat) :
    Option (Ending ModelOutput) → Pipeline σ
  | none => p.finish setup run.job run.byWorker (.timedOut setup.timeout)
  | some (.panic message) => p.finish setup run.job run.byWorker (brokenDown message)
  | some (.error reason) => p.finish setup run.job run.byWorker (.failed reason)
  | some (.value output) => p.keep setup run boundary output

/-- Ends a run after its summary has been stored, or not. -/
def stored (setup : Setup) (p : Pipeline σ) (run : Run) (summary : Summary) :
    Ending Unit → Pipeline σ
  | .panic message => p.finish setup run.job run.byWorker (brokenDown message)
  | .error reason =>
    p.finish setup run.job run.byWorker (.failed (Failure.store reason).message)
  | .value () =>
    match SummaryStore.store p.store run.job.scope summary with
    | (.ok (), store) =>
      { p with store }.finish setup run.job run.byWorker (.succeeded (some summary))
    | (.error f, store) => { p with store }.finish setup run.job run.byWorker (.failed f.message)

/-- Goes on with a run after the call that it waits for. -/
def resume (setup : Setup) (p : Pipeline σ) (run : Run) : Pipeline σ :=
  match run.stage with
  | .loading ending => p.loaded setup run ending
  | .asking boundary ending => p.answered setup run boundary ending
  | .storing summary ending => p.stored setup run summary ending

/-! ## The pool -/

/-- Puts a job into the queue. A job that is refused is given up. -/
def enqueue (p : Pipeline σ) (job : Job) : EnqueueOutcome × Pipeline σ :=
  match p.pool with
  | none => (.dropped .closed, p.release job)
  | some pool =>
    if pool.closing then (.dropped .closed, p.release job)
    else if pool.hasRoom then (.enqueued job.number, p.onPool (·.push job))
    else (.dropped (.queueFull job.scope.text), ((p.onPool Pool.drop).warn).release job)

/-- Whether a worker is there that runs no job. -/
def hasIdleWorker (p : Pipeline σ) : Bool :=
  match p.pool with
  | some pool => pool.alive && p.busy < pool.workers
  | none => false

/-- The first job that waits, for an idle worker to take. -/
def nextJob? (p : Pipeline σ) : Option Job := if p.hasIdleWorker then p.queue.head? else none

/-- Whether the pool takes no more jobs. -/
def isClosing (p : Pipeline σ) : Bool := (p.pool.map Pool.closing).getD false

/-- Takes the first job out of the queue and runs it, or gives it up if the pool is closing. -/
def take (setup : Setup) (p : Pipeline σ) (job : Job) : Pipeline σ :=
  let p := p.onPool fun pool => { pool with queue := pool.queue.tail }
  if p.isClosing then (p.onPool Pool.abandon).release job else p.begin setup job true

/-- Makes the pool take no more jobs. -/
def close (p : Pipeline σ) : Pipeline σ := p.onPool fun pool => { pool with closing := true }

/-- Whether the workers have nothing left to do. -/
def isDrained (p : Pipeline σ) : Bool := p.busy == 0 && p.queue.isEmpty

/-- Lets the workers go, who have nothing left to do. -/
def dismiss (p : Pipeline σ) : Pipeline σ := p.onPool Pool.dissolve

/-- Stops the workers in the midst of their jobs, which end without an outcome. -/
def abort (p : Pipeline σ) : Pipeline σ :=
  ({ p with runs := p.runs.filter (!·.byWorker) }.onPool Pool.dissolve).warn

end Pipeline

end Transcript
