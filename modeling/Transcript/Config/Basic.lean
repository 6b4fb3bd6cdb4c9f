import Transcript.Summary.Prompt
import Transcript.Tailoring.Strategy
import Transcript.Trigger.Checker

/-!
# Configuration

What can be set about a service, with a usual value for everything. `Config.validate` says what
cannot be worked with.
-/

namespace Transcript

/-- A part that can be switched off as a whole. -/
structure Toggle (α : Type) where
  /-- Whether the part is on. -/
  enabled : Bool := true
  /-- What is set about the part. -/
  config : α
deriving DecidableEq, Repr

/-- How the thresholds of a trigger work together. -/
inductive TriggerMode where
  /-- It is enough that one is crossed. -/
  | any
  /-- All of them have to be crossed. -/
  | all
deriving DecidableEq, Repr

/-- When summaries are written, and how. -/
structure SummaryConfig where
  /-- The greatest number of words, or 0 if there is none. -/
  maxWords : Nat := 0
  /-- The template of the prompt. -/
  template : String := standardTemplate
  /-- A summary is due after more events than this. -/
  eventThreshold : Nat := 20
  /-- A summary is due after more tokens than this. Zero switches this threshold off. -/
  tokenThreshold : Nat := 0
  /-- A summary is due when a window is longer than so many seconds. Zero switches this one off. -/
  timeThreshold : Nat := 0
  /-- How the thresholds work together. -/
  mode : TriggerMode := .any
  /-- Whether requests carry the summary. -/
  addToPrompt : Bool := true
  /-- Whether a scope may have only one job at a time. -/
  singleFlight : Bool := false
deriving DecidableEq, Repr

namespace SummaryConfig

/-- The template of the prompt. -/
def prompt (c : SummaryConfig) : Except Failure PromptTemplate :=
  PromptTemplate.make c.template c.maxWords

/-- The checkers of the thresholds that are on. -/
def checkers (c : SummaryConfig) : List Checker :=
  Checker.events c.eventThreshold ::
    ((if 0 < c.tokenThreshold then [Checker.tokens c.tokenThreshold] else []) ++
      if 0 < c.timeThreshold then [Checker.time (.ofSeconds c.timeThreshold)] else [])

/-- The checker for all thresholds that are on. -/
def checker (c : SummaryConfig) : Checker :=
  match c.mode with
  | .any => Checker.any c.checkers
  | .all => Checker.all c.checkers

end SummaryConfig

/-- How jobs are run in the background. -/
structure PoolConfig where
  /-- The number of workers. -/
  workers : Nat := 3
  /-- The number of jobs that may wait. -/
  queueSize : Nat := 100
  /-- The seconds that a job may take to load the last summary and to ask the model. -/
  jobTimeout : Nat := 30
  /-- The seconds that running jobs have left at the end. -/
  grace : Nat := 5
deriving DecidableEq, Repr

/-- How requests are kept short without summaries. -/
structure TailoringConfig where
  /-- Which messages go first. -/
  strategy : Strategy := .middleOut
  /-- The tokens of a request. -/
  maxTokens : Nat := 32000
  /-- The number of latest messages that are looked at, or 0 for all of them. -/
  maxHistory : Nat := 0
deriving DecidableEq, Repr

/-- What can be set about a service. -/
structure Config where
  /-- The summaries. -/
  summary : Toggle SummaryConfig := { config := {} }
  /-- The jobs in the background. -/
  pool : PoolConfig := {}
  /-- The requests without summaries. -/
  tailoring : TailoringConfig := {}
deriving DecidableEq, Repr

namespace Config

/-- A configuration without summaries. -/
def tailoringOnly (tailoring : TailoringConfig) : Config :=
  { summary := { enabled := false, config := {} }, tailoring }

/-- The configuration with another number of events. -/
def withEventThreshold (c : Config) (threshold : Nat) : Config :=
  { c with summary.config.eventThreshold := threshold }

/-- The configuration with another pool. -/
def withWorkers (c : Config) (workers queueSize : Nat) : Config :=
  { c with pool.workers := workers, pool.queueSize := queueSize }

/-- The configuration with another time for jobs. -/
def withJobTimeout (c : Config) (seconds : Nat) : Config := { c with pool.jobTimeout := seconds }

/-- The configuration with another way to keep requests short. -/
def withStrategy (c : Config) (strategy : Strategy) (maxTokens : Nat) : Config :=
  { c with tailoring.strategy := strategy, tailoring.maxTokens := maxTokens }

/-- The first thing about a configuration that cannot be worked with, if there is any. -/
def fault? (c : Config) : Option Failure :=
  if !PromptTemplate.hasPlace c.summary.config.template then
    some (.invalidTemplate "prompt_template")
  else if c.pool.workers = 0 then some (.invalidConfig .noWorkers)
  else if c.pool.queueSize = 0 then some (.invalidConfig .noQueue)
  else if c.pool.jobTimeout = 0 then some (.invalidConfig .noTimeout)
  else none

/-- Refuses a configuration that cannot be worked with. -/
def validate (c : Config) : Except Failure Unit :=
  match c.fault? with
  | some f => .error f
  | none => .ok ()

end Config

end Transcript
