import Transcript.Proofs.Pipeline.Conservation
import Transcript.Proofs.Pipeline.InFlight
import Transcript.Proofs.Service.Bookkeeping
import Transcript.Proofs.Service.Representation

/-!
# What becomes of the jobs of a pool

Until the grace period is over, each job that was let into the queue of a pool has ended or was
abandoned, or it still waits or runs (`Pipeline.pool_is_orderly`). When the workers are gone all
jobs have ended, or were abandoned or aborted, but for those that still waited when the grace period
was over (`Pipeline.shutdown_accounts_iff`): nobody counts them, and their scopes go on to count
them as in flight.
-/

namespace Transcript

/-- One worker, and room for one job that waits. -/
def PoolConfig.single : PoolConfig where
  workers := 1
  queueSize := 1
  grace := 1

/-- Parts of a service with one worker and a model that takes so many milliseconds. -/
def ServiceParts.taking (delay : Nat) : ServiceParts MemoryStore :=
  { ServiceParts.terse with
    config.pool := .single
    summarizer := some { reply := fun _ _ => { delay, ending := .value { text := "S" } } } }

/-- A service with one worker and a model that takes so many milliseconds. -/
def Service.taking (delay : Nat) : Service MemoryStore :=
  { Service.terse with
    config := (ServiceParts.taking delay).config
    setup.summarizer := { reply := fun _ _ => { delay, ending := .value { text := "S" } } }
    pipeline := { store := {}, pool := some (Pool.ofConfig .single) } }

/-- It is what is built from these parts. -/
theorem Service.build_taking (delay : Nat) :
    (ServiceParts.taking delay).build = .ok (Service.taking delay) := by
  -- The configuration does not depend on the delay.
  have hvalid : (ServiceParts.taking 0).config.validate = .ok () := by decide +kernel
  have hprompt : (ServiceParts.taking 0).config.summary.config.prompt =
      .ok { template := conversationPlace } := by decide +kernel
  exact ServiceParts.build_eq_ok_iff.2 ⟨hvalid, _, hprompt, rfl, rfl⟩

namespace Pipeline

variable {σ : Type}

/-- How a pool keeps order. -/
structure Orderly (c : PoolConfig) (l : Ledger) (p : Pipeline σ) (pool : Pool) : Prop where
  /-- The stats count what has happened. -/
  tells : l.Tells pool.stats
  /-- A job that was let in has ended or was abandoned, or it waits or runs. -/
  balance : pool.stats.enqueued = pool.stats.succeeded + pool.stats.failed + pool.stats.timedOut +
    pool.stats.abandoned + p.queue.length + p.busy
  /-- The queue holds no more jobs than it has room for. -/
  room : p.queue.length ≤ max c.queueSize 1
  /-- No more jobs run than there are workers. -/
  busy : p.busy ≤ max c.workers 1
  /-- Jobs are taken in the order in which they were let in. -/
  fifo : l.accepted = l.taken ++ p.queue
  /-- No job is let in twice. -/
  once : (l.accepted.map Job.number).Nodup
  /-- A job that was taken was started or abandoned. -/
  taken : l.taken.Perm (l.started ++ l.abandoned)
  /-- A job that was started is finished, or it runs. -/
  started : l.started.Perm (l.finished.map Prod.fst ++ p.workerJobs)
  /-- No job is started once the pool was closed. -/
  unclosed : ∀ before job, before ++ [.started job] <+: l → .closed ∉ before
  /-- A job is let in exactly if the pool was not closed and there is room. -/
  enqueued : ∀ job, (∃ number, (p.enqueue job).1 = .enqueued number) ↔
    .closed ∉ l ∧ p.queue.length < max c.queueSize 1
  /-- It is dropped exactly if the pool was not closed and all the room is taken. -/
  full : ∀ job, (p.enqueue job).1 = .dropped (.queueFull job.scope.text) ↔
    .closed ∉ l ∧ p.queue.length = max c.queueSize 1
  /-- Then and only then it is counted as dropped. -/
  dropped : ∀ job, (p.enqueue job).2.pool.map (·.stats.dropped) =
    some (pool.stats.dropped +
      if (p.enqueue job).1 = .dropped (.queueFull job.scope.text) then 1 else 0)
  /-- It is refused exactly if the pool was closed. -/
  closed : ∀ job, (p.enqueue job).1 = .dropped .closed ↔ .closed ∈ l

variable {setup : Setup} {exclusive : Bool} {store : σ} {c : PoolConfig} {l : Ledger}
  {p : Pipeline σ}

/-- Until the grace period is over, a pool keeps order, whatever happens and whenever it does. -/
theorem pool_is_orderly (hsteps : Steps setup exclusive (fresh store (some c)) l p)
    (htime : l.isInTime = true) : ∃ pool, p.pool = some pool ∧ Orderly c l p pool := by
  have hstarted := hsteps.started_perm
  rw [(Ledger.aborted_eq_nil htime).1, List.append_nil] at hstarted
  refine ⟨l.pool c, hsteps.pool_eq_some, ?_⟩
  exact {
    tells := l.tells_pool c
    balance := hsteps.balance htime
    room := hsteps.room
    busy := hsteps.busy_le
    fifo := hsteps.accepted_eq htime
    once := hsteps.accepted_numbers.1
    taken := l.taken_perm
    started := hstarted
    unclosed := fun _ _ => hsteps.not_closed_of_started
    enqueued := fun job => (hsteps.answer_iff job).1
    full := fun job => (hsteps.answer_iff job).2.1
    dropped := dropped_enqueue hsteps.pool_eq_some
    closed := fun job => (hsteps.answer_iff job).2.2 }

/-- While the only worker is busy, one job waits, and another finds no room. -/
theorem pool_is_orderly_full_queue :
    let scope := Scope.whole .desk
    let p :=
      ((Service.taking 3000).performAll [.append .desk (.saying "x"), .enqueue scope, .sleep 50,
          .enqueue scope, .enqueue scope]).pipeline
    ∃ (l : Ledger) (pool : Pool),
      Steps (Service.taking 3000).setup false (fresh {} (some .single)) l p ∧ l.isInTime = true ∧
      p.pool = some pool ∧ pool.stats = { enqueued := 2, dropped := 1 } ∧ p.queue.length = 1 ∧
      p.busy = 1 ∧ Orderly .single l p pool := by
  intro scope p
  obtain ⟨l, hsteps, hallowed⟩ := Service.exists_ledger_of_build (Service.build_taking 3000)
    [.append .desk (.saying "x"), .enqueue scope, .sleep 50, .enqueue scope, .enqueue scope]
  have htime : l.isInTime = true := hallowed.in_time (by decide +kernel)
  obtain ⟨pool, hpool, horderly⟩ := pool_is_orderly hsteps htime
  have hstats : p.pool.map Pool.stats = some { enqueued := 2, dropped := 1 } := by decide +kernel
  rw [hpool] at hstats
  refine ⟨l, pool, hsteps, htime, hpool, Option.some.inj hstats, ?_, ?_, horderly⟩
  · decide +kernel
  · decide +kernel

/-- When a pool has been shut down, its workers are gone. -/
theorem gone_of_shutdown [SummaryStore σ] (hopen : p.isClosing = false) {pool : Pool}
    (hpool : (p.shutdown setup).pool = some pool) : pool.alive = false := by
  have hdissolved {q : Pipeline σ} (hq : q.pool.map Pool.dissolve = some pool) :
      pool.alive = false := by
    obtain ⟨before, -, rfl⟩ := Option.map_eq_some_iff.1 hq
    rfl
  unfold shutdown at hpool
  split at hpool
  · rename_i hnone
    rw [hnone] at hpool
    cases hpool
  · rename_i first hfirst
    have hopen' : ¬ first.closing = true := by
      unfold isClosing at hopen
      rw [hfirst] at hopen
      exact Bool.not_eq_true _ ▸ hopen
    rw [if_neg hopen'] at hpool
    dsimp only at hpool
    split at hpool
    · exact hdissolved hpool
    · split at hpool
      · exact hdissolved hpool
      · exact hdissolved hpool

/-- What has become of the jobs of a pool when its workers are gone. -/
structure Settled (l : Ledger) (p : Pipeline σ) (pool : Pool) : Prop where
  /-- No job was let in twice. -/
  once : (l.accepted.map Job.number).Nodup
  /-- A job that was let in has ended, or it was abandoned, aborted or left stranded. -/
  fates : l.accepted.Perm (l.finished.map Prod.fst ++ l.abandoned ++ l.aborted ++ l.stranded)
  /-- The stats count what has happened. -/
  tells : l.Tells pool.stats
  /-- They account for all but the aborted jobs exactly if no job was left stranded. -/
  balance : pool.stats.enqueued = pool.stats.succeeded + pool.stats.failed + pool.stats.timedOut +
    pool.stats.abandoned + l.aborted.length ↔ l.stranded = []
  /-- Beside the jobs that the caller still runs, a scope goes on to count those that were aborted
  or left stranded, unless its session was removed. -/
  inFlight : ∀ scope, .removed scope.session ∉ l →
    p.inFlight scope = p.jobs.countP (·.countsFor scope) +
      l.aborted.countP (·.countsFor scope) + l.stranded.countP (·.countsFor scope)

/-- When the workers are gone, the stats are settled. -/
theorem Steps.settled (hsteps : Steps setup exclusive (fresh store (some c)) l p) {pool : Pool}
    (hpool : p.pool = some pool) (hgone : pool.alive = false) : Settled l p pool := by
  obtain rfl : l.pool c = pool := Option.some.inj (hsteps.pool_eq_some.symm.trans hpool)
  obtain ⟨-, hqueue, hworkers⟩ := hsteps.alive_or_gone.resolve_left (by simp [hgone])
  have htells := l.tells_pool c
  have hfates :
      l.accepted.Perm (l.finished.map Prod.fst ++ l.abandoned ++ l.aborted ++ l.stranded) := by
    refine List.perm_iff_count.2 fun job => ?_
    have haccepted := hsteps.accepted_perm.count_eq job
    have htaken := l.taken_perm.count_eq job
    have hstarted := hsteps.started_perm.count_eq job
    rw [hqueue] at haccepted
    rw [hworkers] at hstarted
    simp only [List.count_append, List.count_nil] at haccepted htaken hstarted ⊢
    omega
  refine ⟨hsteps.accepted_numbers.1, hfates, htells, ?_, fun scope hkept => ?_⟩
  · have hlength := hfates.length_eq
    simp only [List.length_append, List.length_map] at hlength
    rw [htells.enqueued, htells.ended, htells.abandoned, ← List.length_eq_zero_iff]
    omega
  · rw [hsteps.in_flight_eq_of_kept scope hkept]
    unfold owed
    rw [l.lost_perm.countP_eq, List.countP_append, Nat.add_assoc]

/-- Whenever the workers of a pool are gone, its jobs are settled, and they are when a shutdown
returns. So the stats account for all jobs that were let in, but for those that ran when the grace
period was over, exactly if none still waited then. -/
theorem shutdown_accounts_iff [SummaryStore σ]
    (hsteps : Steps setup exclusive (fresh store (some c)) l p) :
    (∀ pool, p.pool = some pool → pool.alive = false → Settled l p pool) ∧
      (p.isClosing = false →
        ∃ m pool, Steps setup exclusive p m (p.shutdown setup) ∧
          (p.shutdown setup).pool = some pool ∧ pool.alive = false ∧
          Settled (l ++ m) (p.shutdown setup) pool) := by
  refine ⟨fun pool hpool hgone => hsteps.settled hpool hgone, fun hopen => ?_⟩
  obtain ⟨m, hshutdown⟩ : ∃ m, Steps setup exclusive p m (p.shutdown setup) :=
    exists_steps_of_shutdown (hsteps.distinct (distinct_fresh store (some c)))
  have hall := hsteps.trans hshutdown
  have hgone := gone_of_shutdown hopen hall.pool_eq_some
  exact ⟨m, _, hshutdown, hall.pool_eq_some, hgone, hall.settled hall.pool_eq_some hgone⟩

/-- A job that runs may end in time, and one that waits is abandoned then. None is left stranded. -/
theorem shutdown_accounts_iff_in_time :
    let scope := Scope.whole .desk
    let p :=
      ((Service.taking 500).performAll [.append .desk (.saying "x"), .enqueue scope, .sleep 50,
          .enqueue scope]).pipeline
    let setup := (Service.taking 500).setup
    ∃ (l : Ledger) (pool : Pool),
      Steps setup false (fresh {} (some .single)) l (p.shutdown setup) ∧
      (p.shutdown setup).pool = some pool ∧
      pool.stats = { enqueued := 2, succeeded := 1, abandoned := 1 } ∧
      l.aborted = [] ∧ l.stranded = [] := by
  intro scope p setup
  obtain ⟨l, hsteps, -⟩ := Service.exists_ledger_of_build (Service.build_taking 500)
    [.append .desk (.saying "x"), .enqueue scope, .sleep 50, .enqueue scope]
  obtain ⟨m, pool, hshutdown, hpool, -, hsettled⟩ :=
    (shutdown_accounts_iff hsteps).2 (by decide +kernel)
  have hstats : (p.shutdown setup).pool.map Pool.stats =
      some { enqueued := 2, succeeded := 1, abandoned := 1 } := by decide +kernel
  rw [hpool, Option.map_some, Option.some_inj] at hstats
  refine ⟨l ++ m, pool, hsteps.trans hshutdown, hpool, hstats, ?_⟩
  have htells := hsettled.tells
  rw [hstats] at htells
  have haccepted : 2 = (l ++ m).accepted.length := htells.enqueued
  have hfinished : 1 = (l ++ m).finished.length := htells.ended
  have habandoned : 1 = (l ++ m).abandoned.length := htells.abandoned
  have hlength := hsettled.fates.length_eq
  simp only [List.length_append, List.length_map] at hlength
  constructor
  · exact List.eq_nil_of_length_eq_zero (by omega)
  · exact List.eq_nil_of_length_eq_zero (by omega)

end Pipeline

namespace Service

variable {σ : Type} [SummaryStore σ] {parts : ServiceParts σ} {s : Service σ}

/-- Whatever a caller does with a service, short of shutting it down: a job that was let into the
queue has ended, or it waits or is run by a worker. None is abandoned. -/
theorem stats_balance (hbuild : parts.build = .ok s) (ops : List Operation)
    (hopen : .shutdown ∉ ops) {stats : PoolStats}
    (hstats : (s.performAll ops).stats? = some stats) :
    stats.enqueued = stats.succeeded + stats.failed + stats.timedOut + stats.abandoned +
      (s.performAll ops).pipeline.queue.length + (s.performAll ops).pipeline.busy := by
  obtain ⟨l, hsteps, hallowed⟩ := exists_ledger_of_build hbuild ops
  unfold stats? at hstats
  cases hmodel : parts.summarizer with
  | none =>
      rw [hmodel] at hsteps
      rw [hsteps.pool_eq] at hstats
      cases hstats
  | some model =>
      rw [hmodel] at hsteps
      rw [hsteps.pool_eq] at hstats
      cases hstats
      exact hsteps.balance (hallowed.in_time hopen)

/-- A job runs when the grace period is over, and another still waits. Neither is counted, and the
scope goes on to count both of them. -/
theorem shutdown_strands_job :
    let scope := Scope.whole .desk
    let s := (taking 3000).performAll [.append .desk (.saying "x"), .enqueue scope, .sleep 50,
      .enqueue scope]
    (ServiceParts.taking 3000).build = .ok (taking 3000) ∧
      s.pipeline.busy = 1 ∧ s.pipeline.queue.length = 1 ∧
      s.shutdown.stats? = some { enqueued := 2 } ∧ (s.shutdown.state scope).inFlight = 2 := by
  intro scope s
  refine ⟨build_taking 3000, ?_, ?_, ?_, ?_⟩
  · decide +kernel
  · decide +kernel
  · decide +kernel
  · decide +kernel

end Service

end Transcript
