import Mathlib.Data.List.Induction
import Mathlib.Data.List.Perm.Basic
import Transcript.Pipeline.Pool

/-!
# The ledger of a pipeline

A `Ledger` tells what has happened to the jobs of a pipeline, entry by entry, the earliest first. It
has a column for each thing that can become of a job: whoever is let into the queue is taken out of
it by a worker or left stranded when the grace period is over; a worker runs the job that it has
taken, or gives it up because the pool is closing; and a run ends, or it is aborted.

The pool of the pipeline is told by the ledger (`Ledger.pool`), and its stats are the lengths of the
columns (`Ledger.tells_pool`).
-/

namespace Transcript

/-- What can happen to the jobs of a pipeline. A job is made and offered to the pool (`offered`),
with the answer of the pool, or made and run at once outside of the pool (`forced`). A worker takes
the first job out of the queue and runs it (`started`), or gives it up because the pool is closing
(`abandoned`). A run comes to its end (`ended`), whether it is one of a worker or not. The pool is
closed (`closed`), and its workers are let go when they have nothing left to do (`dismissed`) or
when the grace period is over (`expired`): then the jobs that they run are aborted, and those that
still wait are left stranded. A session may be removed (`removed`), and all else is `other`. -/
inductive Entry where
  | other
  | removed (key : SessionKey)
  | offered (job : Job) (answer : EnqueueOutcome)
  | forced (job : Job)
  | started (job : Job)
  | abandoned (job : Job)
  | ended (job : Job) (byWorker : Bool) (outcome : Outcome)
  | closed
  | dismissed
  | expired (aborted stranded : List Job)
deriving DecidableEq

namespace Entry

/-! ## Columns -/

/-- The job that is let into the queue. -/
@[simp] def acceptedJobs : Entry → List Job
  | .offered job (.enqueued _) => [job]
  | _ => []

/-- The job that finds no room in the queue. -/
@[simp] def overflowJobs : Entry → List Job
  | .offered job (.dropped (.queueFull _)) => [job]
  | _ => []

/-- The job that a worker takes out of the queue. -/
@[simp] def takenJobs : Entry → List Job
  | .started job | .abandoned job => [job]
  | _ => []

/-- The job that a worker begins to run. -/
@[simp] def startedJobs : Entry → List Job
  | .started job => [job]
  | _ => []

/-- The job that a worker gives up. -/
@[simp] def abandonedJobs : Entry → List Job
  | .abandoned job => [job]
  | _ => []

/-- The job that a worker has run, with the outcome. -/
@[simp] def finishedJobs : Entry → List (Job × Outcome)
  | .ended job true outcome => [(job, outcome)]
  | _ => []

/-- The jobs that workers run when the grace period is over. -/
@[simp] def abortedJobs : Entry → List Job
  | .expired aborted _ => aborted
  | _ => []

/-- The jobs that still wait when the grace period is over. -/
@[simp] def strandedJobs : Entry → List Job
  | .expired _ stranded => stranded
  | _ => []

/-- The jobs that begin to wait or run. -/
@[simp] def arrived : Entry → List Job
  | .offered job (.enqueued _) | .forced job => [job]
  | _ => []

/-- The jobs that are ended or given up. -/
@[simp] def released : Entry → List Job
  | .abandoned job | .ended job _ _ => [job]
  | _ => []

/-- The jobs that are lost when the grace period is over. -/
@[simp] def lost : Entry → List Job
  | .expired aborted stranded => aborted ++ stranded
  | _ => []

/-- The runs that begin: their jobs, and whether they are of workers. -/
@[simp] def begun : Entry → List (Job × Bool)
  | .started job => [(job, true)]
  | .forced job => [(job, false)]
  | _ => []

/-- The runs that end or are aborted. -/
@[simp] def stopped : Entry → List (Job × Bool)
  | .ended job byWorker _ => [(job, byWorker)]
  | .expired aborted _ => aborted.map (·, true)
  | _ => []

/-- A job that gets somewhere comes from somewhere. -/
theorem balance (e : Entry) :
    (e.acceptedJobs ++ e.begun.map Prod.fst ++ e.released ++ e.lost).Perm
      (e.arrived ++ e.takenJobs ++ e.stopped.map Prod.fst ++ e.strandedJobs) := by
  cases e with
  | offered job answer => cases answer <;> simp
  | expired aborted stranded => simp [Function.comp_def]
  | _ => simp

/-- The runs of workers that begin are those of the jobs that are started. -/
theorem begun_by_worker (e : Entry) : (e.begun.filter Prod.snd).map Prod.fst = e.startedJobs := by
  cases e <;> rfl

/-- The runs of workers that stop are finished or aborted. -/
theorem stopped_by_worker (e : Entry) :
    (e.stopped.filter Prod.snd).map Prod.fst = e.finishedJobs.map Prod.fst ++ e.abortedJobs := by
  cases e with
  | ended job byWorker outcome => cases byWorker <;> rfl
  | expired aborted stranded =>
      have hall : (aborted.map (·, true)).filter Prod.snd = aborted.map (·, true) := by
        simp [List.filter_eq_self]
      simp [hall, Function.comp_def]
  | _ => rfl

/-- At most one job arrives at a time. -/
theorem arrived_nodup (e : Entry) : (e.arrived.map Job.number).Nodup := by
  unfold arrived
  split <;> simp

/-- A job that is let into the queue arrives. -/
theorem accepted_sublist (e : Entry) : e.acceptedJobs.Sublist e.arrived := by
  unfold acceptedJobs
  split
  · exact .refl _
  · exact List.nil_sublist _

/-- What is taken is started or given up. -/
theorem taken_eq (e : Entry) : e.takenJobs = e.startedJobs ++ e.abandonedJobs := by
  cases e <;> rfl

/-- What is lost is aborted or left stranded. -/
theorem lost_eq (e : Entry) : e.lost = e.abortedJobs ++ e.strandedJobs := by
  cases e <;> rfl

/-- A job arrives when it is let into the queue, or when it is forced. -/
theorem cases_of_arrived {e : Entry} {job : Job} (h : job ∈ e.arrived) :
    (∃ number, e = .offered job (.enqueued number)) ∨ e = .forced job := by
  unfold arrived at h
  split at h
  · rw [List.mem_singleton.1 h]
    exact .inl ⟨_, rfl⟩
  · rw [List.mem_singleton.1 h]
    exact .inr rfl
  · cases h

/-! ## The pool -/

/-- Whether the grace period is over. -/
def isExpiry : Entry → Bool
  | .expired _ _ => true
  | _ => false

/-- Whether the workers are gone from then on. -/
def isParting : Entry → Bool
  | .dismissed | .expired _ _ => true
  | _ => false

/-- The pool after an entry: it does not depend on anything else. -/
def onPool (e : Entry) (pool : Pool) : Pool :=
  match e with
  | .offered job (.enqueued _) => pool.push job
  | .offered _ (.dropped (.queueFull _)) => pool.drop
  | .started _ => { pool with queue := pool.queue.tail }
  | .abandoned _ => Pool.abandon { pool with queue := pool.queue.tail }
  | .ended _ true outcome => pool.record outcome
  | .closed => { pool with closing := true }
  | .dismissed | .expired _ _ => pool.dissolve
  | _ => pool

/-- A pool is closed for good. -/
theorem closing_on_pool (e : Entry) (pool : Pool) :
    (e.onPool pool).closing = (pool.closing || e = .closed) := by
  unfold onPool
  split <;> simp_all [Pool.push, Pool.drop, Pool.abandon, Pool.record, Pool.dissolve]

/-- Workers that are gone do not come back. -/
theorem alive_on_pool (e : Entry) (pool : Pool) :
    (e.onPool pool).alive = (pool.alive && !e.isParting) := by
  unfold onPool
  split <;> simp [isParting, Pool.push, Pool.drop, Pool.abandon, Pool.record, Pool.dissolve]

/-- What an entry adds to the stats. -/
theorem stats_on_pool (e : Entry) (pool : Pool) :
    (e.onPool pool).stats =
      { enqueued := pool.stats.enqueued + e.acceptedJobs.length
        dropped := pool.stats.dropped + e.overflowJobs.length
        succeeded := pool.stats.succeeded + e.finishedJobs.countP (·.2.state = .succeeded)
        failed := pool.stats.failed + e.finishedJobs.countP (·.2.state = .failed)
        timedOut := pool.stats.timedOut + e.finishedJobs.countP (·.2.state = .timedOut)
        abandoned := pool.stats.abandoned + e.abandonedJobs.length
        usage := (e.onPool pool).stats.usage } := by
  cases e with
  | offered job answer =>
      cases answer with
      | dropped failure => cases failure <;> rfl
      | _ => rfl
  | ended job byWorker outcome =>
      cases byWorker with
      | true => rcases outcome with (_ | summary) | reason | after <;> rfl
      | false => rfl
  | _ => rfl

/-- No entry changes the number of workers. -/
theorem workers_on_pool (e : Entry) (pool : Pool) : (e.onPool pool).workers = pool.workers := by
  unfold onPool
  split <;> rfl

/-- No entry changes the room in the queue. -/
theorem capacity_on_pool (e : Entry) (pool : Pool) : (e.onPool pool).capacity = pool.capacity := by
  unfold onPool
  split <;> rfl

end Entry

/-- What has happened to the jobs of a pipeline, the earliest first. -/
abbrev Ledger := List Entry

namespace Ledger

variable (l : Ledger)

/-- The jobs that were let into the queue, in this order. -/
abbrev accepted : List Job := l.flatMap Entry.acceptedJobs

/-- The jobs that found no room in the queue. -/
abbrev overflow : List Job := l.flatMap Entry.overflowJobs

/-- The jobs that workers have taken out of the queue, in this order. -/
abbrev taken : List Job := l.flatMap Entry.takenJobs

/-- The jobs that workers have begun to run. -/
abbrev started : List Job := l.flatMap Entry.startedJobs

/-- The jobs that workers have given up. -/
abbrev abandoned : List Job := l.flatMap Entry.abandonedJobs

/-- The jobs that workers have run, with their outcomes. -/
abbrev finished : List (Job × Outcome) := l.flatMap Entry.finishedJobs

/-- The jobs that workers ran when the grace period was over. -/
abbrev aborted : List Job := l.flatMap Entry.abortedJobs

/-- The jobs that still waited when the grace period was over. -/
abbrev stranded : List Job := l.flatMap Entry.strandedJobs

/-- The jobs that have begun to wait or run. -/
abbrev arrived : List Job := l.flatMap Entry.arrived

/-- The jobs that were ended or given up. -/
abbrev released : List Job := l.flatMap Entry.released

/-- The jobs that were lost when the grace period was over. -/
abbrev lost : List Job := l.flatMap Entry.lost

/-- A job that was taken was started or abandoned. -/
theorem taken_perm : l.taken.Perm (l.started ++ l.abandoned) := by
  show (l.flatMap Entry.takenJobs).Perm _
  rw [funext Entry.taken_eq]
  exact (List.flatMap_append_perm l _ _).symm

/-- A job that was lost was running or waiting. -/
theorem lost_perm : l.lost.Perm (l.aborted ++ l.stranded) := by
  show (l.flatMap Entry.lost).Perm _
  rw [funext Entry.lost_eq]
  exact (List.flatMap_append_perm l _ _).symm

/-- What has arrived by an earlier moment has arrived. -/
theorem arrived_subset {m l : Ledger} (h : m <+: l) : m.arrived ⊆ l.arrived := by
  intro job hjob
  obtain ⟨e, he, harrived⟩ := List.mem_flatMap.1 hjob
  exact List.mem_flatMap.2 ⟨e, h.subset he, harrived⟩

/-- Whether the grace period is not over. -/
def isInTime : Bool := l.all (!·.isExpiry)

/-- What is in time was in time before. -/
theorem in_time_of_append {l m : Ledger} (h : isInTime (l ++ m) = true) : l.isInTime = true := by
  unfold isInTime at h ⊢
  rw [List.all_append, Bool.and_eq_true] at h
  exact h.1

/-- Nothing is lost in time. -/
theorem lost_eq_nil {l : Ledger} (h : l.isInTime = true) : l.lost = [] := by
  refine List.flatMap_eq_nil_iff.2 fun e he => ?_
  have hexpiry := List.all_eq_true.1 h e he
  cases e with
  | expired aborted stranded => simp [Entry.isExpiry] at hexpiry
  | _ => rfl

/-- So nothing is aborted, and nothing is left stranded. -/
theorem aborted_eq_nil {l : Ledger} (h : l.isInTime = true) : l.aborted = [] ∧ l.stranded = [] := by
  have hperm := l.lost_perm
  rw [lost_eq_nil h] at hperm
  exact List.append_eq_nil_iff.1 hperm.symm.eq_nil

/-! ## The pool -/

/-- The pool after all of it, as it was configured. -/
def pool (c : PoolConfig) : Pool := l.foldl (fun pool e => e.onPool pool) (Pool.ofConfig c)

/-- The last entry changes the pool last. -/
theorem pool_concat (e : Entry) (c : PoolConfig) : pool (l ++ [e]) c = e.onPool (l.pool c) := by
  unfold pool
  rw [List.foldl_append]
  rfl

/-- The stats count what the ledger tells. -/
structure Tells (l : Ledger) (s : PoolStats) : Prop where
  enqueued : s.enqueued = l.accepted.length
  dropped : s.dropped = l.overflow.length
  succeeded : s.succeeded = l.finished.countP (·.2.state = .succeeded)
  failed : s.failed = l.finished.countP (·.2.state = .failed)
  timedOut : s.timedOut = l.finished.countP (·.2.state = .timedOut)
  abandoned : s.abandoned = l.abandoned.length

/-- An entry changes the columns and the stats alike. -/
theorem Tells.next {l : Ledger} {pool : Pool} (h : l.Tells pool.stats) (e : Entry) :
    Tells (l ++ [e]) (e.onPool pool).stats := by
  rw [Entry.stats_on_pool]
  obtain ⟨henqueued, hdropped, hsucceeded, hfailed, htimedOut, habandoned⟩ := h
  constructor <;>
    simp only [List.flatMap_append, List.flatMap_singleton, List.length_append,
      List.countP_append, *]

/-- The stats of the pool tell what the ledger has. -/
theorem tells_pool (c : PoolConfig) : l.Tells (l.pool c).stats := by
  induction l using List.reverseRecOn with
  | nil => constructor <;> rfl
  | append_singleton l e ih =>
      rw [pool_concat]
      exact ih.next e

/-- Jobs end in one of three ways. -/
theorem Tells.ended {l : Ledger} {s : PoolStats} (h : l.Tells s) :
    s.succeeded + s.failed + s.timedOut = l.finished.length := by
  rw [h.succeeded, h.failed, h.timedOut]
  induction l.finished with
  | nil => rfl
  | cons ending endings ih =>
      have hstate : ending.2.state = .succeeded ∨ ending.2.state = .failed ∨
          ending.2.state = .timedOut := by
        cases ending.2 <;> simp [Outcome.state]
      simp only [List.countP_cons, List.length_cons]
      rcases hstate with hstate | hstate | hstate <;> simp [hstate] <;> omega

/-- A pool is closing once it was closed. -/
theorem closing_pool (c : PoolConfig) : (l.pool c).closing = true ↔ .closed ∈ l := by
  induction l using List.reverseRecOn with
  | nil => simp [pool, Pool.ofConfig]
  | append_singleton l e ih =>
      rw [pool_concat, Entry.closing_on_pool, Bool.or_eq_true, ih, List.mem_append,
        List.mem_singleton, decide_eq_true_eq, eq_comm (a := e)]

/-- The pool has as many workers as it is configured with, but one at least. -/
@[simp] theorem workers_pool (c : PoolConfig) : (l.pool c).workers = max c.workers 1 := by
  induction l using List.reverseRecOn with
  | nil => rfl
  | append_singleton l e ih => rw [pool_concat, Entry.workers_on_pool, ih]

/-- It has as much room as it is configured with, but for one job at least. -/
@[simp] theorem capacity_pool (c : PoolConfig) : (l.pool c).capacity = max c.queueSize 1 := by
  induction l using List.reverseRecOn with
  | nil => rfl
  | append_singleton l e ih => rw [pool_concat, Entry.capacity_on_pool, ih]

end Ledger

end Transcript
