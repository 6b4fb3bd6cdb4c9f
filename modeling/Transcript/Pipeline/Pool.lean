import Transcript.Config.Basic
import Transcript.Job.Basic
import Transcript.Message.Merge

/-!
# The pool of workers

A pool has some workers and a queue that holds a bounded number of jobs. A job that finds no room is
dropped. A pool that is closing takes no more jobs, and the jobs that are left in its queue are
abandoned.
-/

namespace Transcript

/-- What has become of the jobs of a pool. -/
structure PoolStats where
  /-- The jobs that were let into the queue. -/
  enqueued : Nat := 0
  /-- The jobs that found no room. -/
  dropped : Nat := 0
  /-- The jobs that succeeded. -/
  succeeded : Nat := 0
  /-- The jobs that went wrong. -/
  failed : Nat := 0
  /-- The jobs whose time ran out. -/
  timedOut : Nat := 0
  /-- The jobs that were taken out of the queue of a closing pool. -/
  abandoned : Nat := 0
  /-- What the new summaries cost. The sums are taken to fit machine words. -/
  usage : Usage := {}
deriving DecidableEq, Repr

namespace PoolStats

/-- The stats after the end of a job. -/
def record (s : PoolStats) : Outcome → PoolStats
  | .succeeded (some summary) =>
    { s with succeeded := s.succeeded + 1, usage := merge s.usage summary.usage }
  | .succeeded none => { s with succeeded := s.succeeded + 1 }
  | .failed _ => { s with failed := s.failed + 1 }
  | .timedOut _ => { s with timedOut := s.timedOut + 1 }

end PoolStats

/-- A pool of workers. -/
structure Pool where
  /-- The number of workers. -/
  workers : Nat
  /-- The number of jobs that the queue has room for. -/
  capacity : Nat
  /-- The time that running jobs have left when the pool is closed. -/
  grace : Span
  /-- The jobs that wait, the first one in front. -/
  queue : List Job := []
  /-- Whether the pool takes no more jobs. -/
  closing : Bool := false
  /-- Whether the workers are still there. -/
  alive : Bool := true
  /-- What has become of the jobs. -/
  stats : PoolStats := {}

namespace Pool

/--
A pool as it is configured, but with one worker and room for one job at least. It is left out that a
channel for jobs cannot be made with room for more than 2^61 - 1 of them.
-/
def ofConfig (c : PoolConfig) : Pool where
  workers := max c.workers 1
  capacity := max c.queueSize 1
  grace := .ofSeconds c.grace

/-- Whether the queue has room for another job. -/
def hasRoom (p : Pool) : Bool := p.queue.length < p.capacity

/-- The pool with another job at the end of its queue. -/
def push (p : Pool) (job : Job) : Pool :=
  { p with queue := p.queue ++ [job], stats.enqueued := p.stats.enqueued + 1 }

/-- The pool after a job found no room. -/
def drop (p : Pool) : Pool := { p with stats.dropped := p.stats.dropped + 1 }

/-- The pool after a job was taken out of its queue and abandoned. -/
def abandon (p : Pool) : Pool := { p with stats.abandoned := p.stats.abandoned + 1 }

/-- The pool after one of its jobs has ended. -/
def record (p : Pool) (outcome : Outcome) : Pool := { p with stats := p.stats.record outcome }

/-- The pool without its workers and without the jobs that waited for them. -/
def dissolve (p : Pool) : Pool := { p with queue := [], alive := false }

end Pool

/-- Why no job was made. -/
inductive SkipReason where
  /-- The scope has no events. -/
  | nothingToSummarize
  /-- The scope has a job already, and may have only one. -/
  | inFlight
  /-- Summaries are switched off, or there is no model. -/
  | disabled
deriving DecidableEq, Repr

/-- What has become of the wish for a job. -/
inductive EnqueueOutcome where
  /-- The job of the number waits. -/
  | enqueued (number : Nat)
  /-- The job was dropped. -/
  | dropped (failure : Failure)
  /-- There is no job. -/
  | skipped (reason : SkipReason)
deriving DecidableEq, Repr

namespace EnqueueOutcome

/-- Whether a job waits. -/
def isEnqueued : EnqueueOutcome → Bool
  | .enqueued _ => true
  | _ => false

/-- Whether a job was dropped. -/
def isDropped : EnqueueOutcome → Bool
  | .dropped _ => true
  | _ => false

end EnqueueOutcome

end Transcript
