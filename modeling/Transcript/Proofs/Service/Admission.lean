import Transcript.Proofs.Service.Conservation
import Transcript.Proofs.Service.Requests

/-!
# Which requests for jobs are let in

A request is let in exactly if summaries are on, there is a model, the scope has events and may have
a further job, and the pool is open and has room (`Service.is_enqueued_iff`). Then the job waits
behind the others and is counted for its scope (`Service.enqueue_let_in`). A job is counted before
it is offered to the pool, but when it is refused nothing of that is left
(`Service.refused_request_changes_nothing`).
-/

namespace Transcript

namespace Service

variable {σ : Type} {s : Service σ} {scope : Scope}

/-! ## Requests that are refused -/

/-- A refused request has changed nothing that is known about any scope, and of the pool at most the
number of jobs that were dropped. -/
theorem enqueue_refused (hrefused : (s.enqueue scope).1.isEnqueued = false) :
    (∀ other, (s.enqueue scope).2.state other = s.state other) ∧
      (s.enqueue scope).2.pipeline.pool =
        if (s.enqueue scope).1 = .dropped (.queueFull scope.text) then s.pipeline.pool.map Pool.drop
        else s.pipeline.pool := by
  have hanswered := s.answered_enqueue scope
  generalize (s.enqueue scope).1 = answer, (s.enqueue scope).2 = s' at hrefused hanswered ⊢
  cases hanswered with
  | disabled | idle | busy => exact ⟨fun _ => rfl, rfl⟩
  | modelless =>
      unfold warnNoModel
      split <;> exact ⟨fun _ => rfl, rfl⟩
  | @offered job made answer p henabled hmodel hevents hadmits hmade hanswer =>
      -- What was counted for the job is taken off again.
      have hstate (other : Scope) : (made.pipeline.counters.endJob job.scope).snapshot other =
          s.pipeline.counters.snapshot other := by
        cases hmade
        exact s.pipeline.counters.snapshot_end_begin_job scope other hadmits
      have hjob : job.scope = scope ∧ job.tracked = true ∧
          made.pipeline.pool = s.pipeline.pool := by
        cases hmade
        exact ⟨rfl, rfl, rfl⟩
      obtain ⟨hscope, htracked, hpool⟩ := hjob
      rcases Pipeline.enqueue_cases hanswer with
        ⟨pool, -, -, -, rfl, -⟩ | ⟨pool, -, -, -, rfl, rfl⟩ | ⟨-, rfl, rfl⟩
      · cases hrefused
      · rw [Pipeline.release_eq, if_pos htracked, hscope, if_pos rfl]
        exact ⟨fun other => hscope ▸ hstate other, congrArg (Option.map Pool.drop) hpool⟩
      · rw [Pipeline.release_eq, if_pos htracked]
        exact ⟨hstate, hpool⟩

/-- A request that is refused, for whatever reason, leaves everything as it was: what is known about
each scope, the jobs that wait, the events and the summaries. Of the stats only the number of
dropped jobs goes up by one, and only if the queue was full. -/
theorem refused_request_changes_nothing (s : Service σ) (scope : Scope)
    (hrefused : (s.enqueue scope).1.isEnqueued = false) :
    let answer := (s.enqueue scope).1
    let s' := (s.enqueue scope).2
    (∀ other, s'.state other = s.state other) ∧ s'.pipeline.queue = s.pipeline.queue ∧
      s'.pipeline.log = s.pipeline.log ∧ s'.pipeline.store = s.pipeline.store ∧
      s'.stats? =
        if answer = .dropped (.queueFull scope.text) then
          s.stats?.map fun stats => { stats with dropped := stats.dropped + 1 }
        else s.stats? := by
  intro answer s'
  obtain ⟨hstate, hpool⟩ := enqueue_refused hrefused
  obtain ⟨-, hquiet, -⟩ := (s.enqueue_spec scope).1
  refine ⟨hstate, ?_, hquiet.log, hquiet.store, ?_⟩
  · unfold Pipeline.queue
    rw [hpool]
    split
    · rw [Option.map_map]
      rfl
    · rfl
  · unfold stats?
    rw [hpool]
    split
    · rw [Option.map_map, Option.map_map]
      rfl
    · rfl

/-- The queue has room for one job. The second one is dropped, and only the stats tell of it. -/
theorem refused_request_changes_nothing_full :
    let scope := Scope.whole .desk
    let s := (taking 3000).performAll [.append .desk (.saying "x"), .enqueue scope]
    let s' := (s.enqueue scope).2
    (s.enqueue scope).1 = .dropped (.queueFull scope.text) ∧
      (∀ other, s'.state other = s.state other) ∧
      s'.pipeline.queue = s.pipeline.queue ∧ s'.pipeline.queue.length = 1 ∧
      (s'.state scope).inFlight = 1 ∧ s.stats? = some { enqueued := 1 } ∧
      s'.stats? = some { enqueued := 1, dropped := 1 } := by
  intro scope s s'
  have hfull : (s.enqueue scope).1 = .dropped (.queueFull scope.text) := by decide +kernel
  obtain ⟨hstate, hqueue, -⟩ := refused_request_changes_nothing s scope (by rw [hfull]; rfl)
  refine ⟨hfull, hstate, hqueue, ?_, ?_, ?_, ?_⟩
  · decide +kernel
  · decide +kernel
  · decide +kernel
  · decide +kernel

/-! ## Requests that are let in -/

/-- A request is let in exactly if summaries are on, there is a model, the scope has events and may
have a further job, and the pool is not closing and has room. -/
theorem is_enqueued_iff (s : Service σ) (scope : Scope) :
    (s.enqueue scope).1.isEnqueued = true ↔
      s.config.summary.enabled = true ∧
        s.pipeline.log.hasEvents scope.session scope.filter = true ∧ s.admits scope = true ∧
        ∃ pool, s.pipeline.pool = some pool ∧ pool.closing = false ∧ pool.hasRoom = true := by
  have hanswered := s.answered_enqueue scope
  generalize (s.enqueue scope).1 = answer, (s.enqueue scope).2 = s' at hanswered ⊢
  cases hanswered with
  | disabled hoff => simp [EnqueueOutcome.isEnqueued, hoff]
  | modelless hmodel =>
      have hnone : s.pipeline.pool = none := by
        rwa [hasModel, Option.isSome_eq_false_iff, Option.isNone_iff_eq_none] at hmodel
      simp [EnqueueOutcome.isEnqueued, hnone]
  | idle hnone => simp [EnqueueOutcome.isEnqueued, hnone]
  | busy hbusy => simp [EnqueueOutcome.isEnqueued, hbusy]
  | @offered job made answer p henabled hmodel hevents hadmits hmade hanswer =>
      have hsame : made.pipeline.pool = s.pipeline.pool := by
        cases hmade
        rfl
      rcases Pipeline.enqueue_cases hanswer with
        ⟨pool, hpool, hopen, hroom, rfl, -⟩ | ⟨pool, hpool, hopen, hroom, rfl, -⟩ |
        ⟨hclosed, rfl, -⟩
      · simp [EnqueueOutcome.isEnqueued, henabled, hevents, hadmits, ← hsame, hpool, hopen, hroom]
      · simp [EnqueueOutcome.isEnqueued, ← hsame, hpool, hroom]
      · simp only [EnqueueOutcome.isEnqueued, Bool.false_eq_true, false_iff]
        rintro ⟨-, -, -, pool, hpool, hopen, -⟩
        rw [hclosed pool (hsame.trans hpool)] at hopen
        cases hopen

/-- The job that the next request for a scope makes. -/
def nextJob (s : Service σ) (scope : Scope) : Job :=
  ⟨s.pipeline.created + 1, scope, s.pipeline.now s.setup, true⟩

/-- When a request is let in, its job waits behind the others and is counted for its scope. -/
theorem enqueue_let_in (hlet : (s.enqueue scope).1.isEnqueued = true) :
    (s.enqueue scope).1 = .enqueued (s.nextJob scope).number ∧
      (∀ other, (s.enqueue scope).2.state other =
        if other = scope then (s.state scope).beginJob else s.state other) ∧
      (s.enqueue scope).2.pipeline.pool = s.pipeline.pool.map (·.push (s.nextJob scope)) := by
  have hanswered := s.answered_enqueue scope
  generalize (s.enqueue scope).1 = answer, (s.enqueue scope).2 = s' at hlet hanswered ⊢
  cases hanswered with
  | disabled | modelless | idle | busy => cases hlet
  | @offered job made answer p henabled hmodel hevents hadmits hmade hanswer =>
      rcases Pipeline.enqueue_cases hanswer with
        ⟨pool, -, -, -, rfl, rfl⟩ | ⟨pool, -, -, -, rfl, -⟩ | ⟨-, rfl, -⟩
      · cases hmade
        refine ⟨rfl, fun other => ?_, rfl⟩
        refine (s.pipeline.counters.snapshot_begin_job scope other _).trans ?_
        by_cases hscope : other = scope
        · subst hscope
          rw [if_pos ⟨rfl, hadmits⟩, if_pos rfl]
          rfl
        · rw [if_neg (fun h => hscope h.1), if_neg hscope]
          rfl
      · cases hlet
      · cases hlet

/-- A request is not turned down for lack of events if the scope has some. -/
theorem enqueue_ne_nothing (hevents : s.pipeline.log.hasEvents scope.session scope.filter = true) :
    (s.enqueue scope).1 ≠ .skipped .nothingToSummarize := by
  have hanswered := s.answered_enqueue scope
  generalize (s.enqueue scope).1 = answer, (s.enqueue scope).2 = s' at hanswered ⊢
  cases hanswered with
  | disabled | modelless | busy => exact nofun
  | idle hnone =>
      rw [hevents] at hnone
      cases hnone
  | offered henabled hmodel hevents hadmits hmade hanswer =>
      rintro rfl
      cases made_job_of_enqueue hanswer

end Service

end Transcript
