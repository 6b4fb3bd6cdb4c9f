import Transcript.Failure
import Transcript.Session.Key
import Transcript.Summary.Basic

/-!
# Jobs

A job is the task to sum up a scope. It names the scope only: what there is to sum up is found out
when the job runs.
-/

namespace Transcript

/-- How far a job has come. -/
inductive JobState where
  /-- It waits. -/
  | enqueued
  /-- It runs. -/
  | running
  /-- It has done what there was to do. -/
  | succeeded
  /-- It went wrong. -/
  | failed
  /-- It took too long. -/
  | timedOut
deriving DecidableEq, Repr

namespace JobState

/-- Whether the job is over. -/
def isTerminal : JobState → Bool
  | .enqueued | .running => false
  | .succeeded | .failed | .timedOut => true

/-- The name of a state. -/
def name : JobState → String
  | .enqueued => "enqueued"
  | .running => "running"
  | .succeeded => "succeeded"
  | .failed => "failed"
  | .timedOut => "timed_out"

end JobState

/-- How a job ends. -/
inductive Outcome where
  /-- With a new summary, or without one if there was nothing to sum up. -/
  | succeeded (summary : Option Summary)
  /-- With a reason why it went wrong. -/
  | failed (reason : String)
  /-- Because its time ran out. -/
  | timedOut (after : Span)
deriving DecidableEq, Repr

namespace Outcome

/-- The state of a job that has ended. -/
def state : Outcome → JobState
  | .succeeded _ => .succeeded
  | .failed _ => .failed
  | .timedOut _ => .timedOut

/-- The outcome as an answer. -/
def toExcept : Outcome → Except Failure (Option Summary)
  | .succeeded summary => .ok summary
  | .failed reason => .error (.jobFailed reason)
  | .timedOut after => .error (.timedOut after)

/-- Whether somebody should hear of the outcome. -/
def isTrouble : Outcome → Bool
  | .succeeded _ => false
  | .failed _ | .timedOut _ => true

end Outcome

/-- The task to sum up a scope. -/
structure Job where
  /-- The number of the job. No two jobs have the same. -/
  number : Nat
  /-- What is to be summed up. -/
  scope : Scope
  /-- When the job was made. -/
  createdAt : Timestamp
  /-- Whether the job counts among those of its scope that wait or run. -/
  tracked : Bool := false
deriving DecidableEq, Repr

end Transcript
