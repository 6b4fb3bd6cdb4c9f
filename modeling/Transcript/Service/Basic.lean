import Transcript.Pipeline.Timeline
import Transcript.Request

/-!
# The service

A `Service` takes the events of conversations in and gives requests out. Every event is counted, for
its session and for its branch; when a count is high enough a job is put into the queue, and the
caller goes on at once. Whatever becomes of the job, the next request can be built: with the latest
summary, if it carries one and there is one, or with all events.
-/

namespace Transcript

/-- What a service is built from. -/
structure ServiceParts (σ : Type) where
  /-- What is set about the service. -/
  config : Config := {}
  /-- The model, if there is one. Without a model there are no summaries. -/
  summarizer : Option Summarizer := none
  /-- The store of summaries. -/
  store : σ
  /-- The way to the store. -/
  link : Link := {}
  /-- What a message costs. -/
  cost : TokenCounter := TokenCounter.standard
  /-- When a summary is due, if it is not to go by the configuration. -/
  checker : Option Checker := none
  /-- Whether there is something to run workers on. -/
  hasRuntime : Bool := true
  /-- When the service is built. -/
  start : Timestamp
  /-- What the clock of the machine shows then. Where it counts from is up to the machine. -/
  origin : Span := .ofSeconds 1

/-- A service. -/
structure Service (σ : Type) where
  /-- What is set about the service. -/
  config : Config
  /-- What stays the same while the service runs. -/
  setup : Setup
  /-- When a summary is due. -/
  checker : Checker
  /-- What a message costs. -/
  cost : TokenCounter
  /-- How requests are kept short. -/
  control : GrowthControl
  /-- Whether somebody was told already that there is no model. -/
  warned : Bool := false
  /-- The events, the summaries, and what is under way. -/
  pipeline : Pipeline σ

namespace ServiceParts

variable {σ : Type}

/-- How requests are kept short: with summaries, if they are on and there is a model. -/
def control (parts : ServiceParts σ) : GrowthControl :=
  if parts.config.summary.enabled && parts.summarizer.isSome then
    .summary parts.config.summary.config.addToPrompt
  else .ofTailoring parts.config.tailoring parts.cost

/-- Builds the service. -/
def build (parts : ServiceParts σ) : Except Failure (Service σ) := do
  parts.config.validate
  let template ← parts.config.summary.config.prompt
  if parts.summarizer.isSome && !parts.hasRuntime then throw (.invalidConfig .noRuntime)
  return {
    config := parts.config
    setup :=
      { summarizer := parts.summarizer.getD .absent
        link := parts.link
        template
        timeout := .ofSeconds parts.config.pool.jobTimeout
        start := parts.start
        origin := parts.origin }
    checker := parts.checker.getD parts.config.summary.config.checker
    cost := parts.cost
    control := parts.control
    pipeline :=
      { store := parts.store
        pool := parts.summarizer.map fun _ => Pool.ofConfig parts.config.pool } }

end ServiceParts

namespace Service

variable {σ : Type} [SummaryStore σ]

/-- The service with its pipeline changed. -/
def onPipeline (s : Service σ) (f : Pipeline σ → Pipeline σ) : Service σ :=
  { s with pipeline := f s.pipeline }

/-- Whether there is a model, and so a pool of workers. -/
def hasModel (s : Service σ) : Bool := s.pipeline.pool.isSome

/-- Whether requests are kept short with summaries. -/
def isSummaryMode (s : Service σ) : Bool := s.control.usesSummary

/-- Warns that there is no model, but only once. -/
def warnNoModel (s : Service σ) : Service σ :=
  if s.warned then s else { s.onPipeline Pipeline.warn with warned := true }

/-- What is known about a scope. -/
def state (s : Service σ) (scope : Scope) : TriggerState := s.pipeline.counters.snapshot scope

/-- The events of a session. -/
def events (s : Service σ) (key : SessionKey) : List Event := s.pipeline.log.events key

/-- What has become of the jobs in the background, if there is a pool for them. -/
def stats? (s : Service σ) : Option PoolStats := s.pipeline.pool.map Pool.stats

/-! ## Jobs -/

/-- Makes a job that counts among those of its scope. -/
def trackedJob (s : Service σ) (scope : Scope) (exclusive : Bool) : Job × Service σ :=
  let p := { s.pipeline with counters := s.pipeline.counters.beginJob scope exclusive }
  let (job, p) := p.newJob s.setup scope true
  (job, { s with pipeline := p })

/-- Puts a job for a scope into the queue. -/
def enqueue (s : Service σ) (scope : Scope) : EnqueueOutcome × Service σ :=
  let exclusive := s.config.summary.config.singleFlight
  if !s.config.summary.enabled then (.skipped .disabled, s)
  else if !s.hasModel then (.skipped .disabled, s.warnNoModel)
  else if !s.pipeline.log.hasEvents scope.session scope.filter then
    (.skipped .nothingToSummarize, s)
  else if !s.pipeline.counters.admits scope exclusive then (.skipped .inFlight, s)
  else
    let (job, s) := s.trackedJob scope exclusive
    let (outcome, p) := s.pipeline.enqueue job
    (outcome, { s with pipeline := p })

/-- Whether a summary of a scope is due. -/
def isDue (s : Service σ) (scope : Scope) : Bool := s.checker (s.state scope)

/--
Asks for a summary. If it is forced it is written at once; otherwise a job is put into the queue if
a summary is due, and there is nothing to show yet.
-/
def summarize (s : Service σ) (scope : Scope) (force : Bool) :
    Except Failure (Option Summary) × Service σ :=
  if !s.hasModel then (.error .noSummarizer, s.warnNoModel)
  else if force then
    let (job, s) := s.trackedJob scope false
    let p := s.pipeline.execute s.setup job
    ((p.outcomeOf job.number).toExcept, { s with pipeline := p })
  else if s.isDue scope then (.ok none, (s.enqueue scope).2)
  else (.ok none, s)

/-! ## Events -/

/-- The scopes that an event is counted for. -/
def scopesOf (key : SessionKey) (branch : String) : List Scope :=
  if branch.isEmpty then [Scope.whole key] else [Scope.whole key, ⟨key, branch⟩]

/-- Counts an event for a scope, and puts a job into the queue if that makes a summary due. -/
def observe (s : Service σ) (e : Event) (scope : Scope) : Service σ :=
  let s := s.onPipeline fun p =>
    { p with counters := p.counters.record scope (s.cost e.message) e.timestamp }
  if s.config.summary.enabled && s.isDue scope then (s.enqueue scope).2 else s

/-- Takes an event in, and gives it a number. -/
def append (s : Service σ) (key : SessionKey) (e : Event) : Nat × Service σ :=
  let id := s.pipeline.log.nextId key
  let s := s.onPipeline fun p => { p with log := p.log.append key e }
  (id, (scopesOf key e.branch).foldl (·.observe e ·) s)

/-- Forgets a session, but not its summaries. Tells whether anything was known about it. -/
def remove (s : Service σ) (key : SessionKey) : Bool × Service σ :=
  let known := s.pipeline.log.contains key || 0 < s.pipeline.counters.forgotten key
  (known, s.onPipeline fun p =>
    { p with log := p.log.remove key, counters := p.counters.forget key })

/-! ## Requests -/

/-- The latest summary of a scope, as far as a request needs it. A store that fails has none. -/
def carried (s : Service σ) (scope : Scope) : Option Summary × Service σ :=
  if s.control.carriesSummary then
    match s.pipeline.load s.setup scope with
    | (.ok summary, p) => (summary, { s with pipeline := p })
    | (.error _, p) => (none, { s with pipeline := p.warn })
  else (none, s)

/-- Builds the next request of a scope. -/
def request (s : Service σ) (scope : Scope) (system : Option String) : List Message × Service σ :=
  let (summary, s) := s.carried scope
  let events :=
    s.pipeline.log.eventsAfter scope.session scope.filter (summary.map Summary.coveredUntil)
  (s.control.assemble system summary events, s)

/-- The text of the latest summary of a scope. -/
def summaryText (s : Service σ) (scope : Scope) : Except Failure (Option String) × Service σ :=
  let (result, p) := s.pipeline.load s.setup scope
  (result.map (·.map Summary.text), { s with pipeline := p })

/-! ## Time -/

/-- Waits so many milliseconds. -/
def sleep (s : Service σ) (ms : Nat) : Service σ := s.onPipeline (·.sleep s.setup ms)

/-- Closes the pool, if there is one. -/
def shutdown (s : Service σ) : Service σ := s.onPipeline (·.shutdown s.setup)

end Service

end Transcript
