import Transcript.Proofs.Pipeline.Jobs
import Transcript.Proofs.Pipeline.Turns
import Transcript.Service.Basic

/-!
# What a caller does to a service

An `Operation` is a call of a service, or a wait. One of them is a request for a job, which is
answered in one of five ways (`Service.Answered`). What an operation does to the pipeline of the
service is put together from turns and from a few things more: an event comes in and is counted, a
session is removed, a job is made and offered to the pool, or made and run at once, the pool is
closed. A relation that is kept in each of these is kept in the operation
(`Service.served_perform`).
-/

namespace Transcript

/-- What a caller can do to a service. All but `sleep`, which is to wait so many milliseconds, are
calls of it. -/
inductive Operation where
  | append (key : SessionKey) (e : Event)
  | remove (key : SessionKey)
  | enqueue (scope : Scope)
  | summarize (scope : Scope) (force : Bool)
  | request (scope : Scope) (system : Option String)
  | summaryText (scope : Scope)
  | sleep (ms : Nat)
  | shutdown
deriving DecidableEq

namespace Service

section Answered

variable {σ : Type}

/-- Whether a scope may have a further job. -/
def admits (s : Service σ) (scope : Scope) : Bool :=
  s.pipeline.counters.admits scope s.config.summary.config.singleFlight

/-- How a request for a job is answered, and what comes of it. There is no job if summaries are off
(`disabled`) or there is no model (`modelless`), if the scope has no events (`idle`), or if it has a
job and may not have another (`busy`). Otherwise a job is made and offered to the pool
(`offered`). -/
inductive Answered (s : Service σ) (scope : Scope) : EnqueueOutcome → Service σ → Prop where
  | disabled (hoff : s.config.summary.enabled = false) : Answered s scope (.skipped .disabled) s
  | modelless (hmodel : s.hasModel = false) : Answered s scope (.skipped .disabled) s.warnNoModel
  | idle (hnone : s.pipeline.log.hasEvents scope.session scope.filter = false) :
      Answered s scope (.skipped .nothingToSummarize) s
  | busy (hbusy : s.admits scope = false) : Answered s scope (.skipped .inFlight) s
  | offered {job : Job} {made : Service σ} {answer : EnqueueOutcome} {p : Pipeline σ}
      (henabled : s.config.summary.enabled = true) (hmodel : s.hasModel = true)
      (hevents : s.pipeline.log.hasEvents scope.session scope.filter = true)
      (hadmits : s.admits scope = true)
      (hmade : s.trackedJob scope s.config.summary.config.singleFlight = (job, made))
      (hanswer : made.pipeline.enqueue job = (answer, p)) :
      Answered s scope answer { made with pipeline := p }

/-- These are all the answers to a request for a job. -/
theorem answered_enqueue (s : Service σ) (scope : Scope) :
    Answered s scope (s.enqueue scope).1 (s.enqueue scope).2 := by
  unfold enqueue
  dsimp only
  split
  · rename_i hoff
    exact .disabled (by simpa using hoff)
  · rename_i henabled
    split
    · rename_i hmodel
      exact .modelless (by simpa using hmodel)
    · rename_i hmodel
      split
      · rename_i hnone
        exact .idle (by simpa using hnone)
      · rename_i hevents
        split
        · rename_i hbusy
          exact .busy (by simpa [admits] using hbusy)
        · rename_i hadmits
          exact .offered (by simpa using henabled) (by simpa using hmodel) (by simpa using hevents)
            (by simpa [admits] using hadmits) rfl rfl

end Answered

variable {σ : Type} [SummaryStore σ]

/-- The service after an operation. -/
def perform (s : Service σ) : Operation → Service σ
  | .append key e => (s.append key e).2
  | .remove key => (s.remove key).2
  | .enqueue scope => (s.enqueue scope).2
  | .summarize scope force => (s.summarize scope force).2
  | .request scope system => (s.request scope system).2
  | .summaryText scope => (s.summaryText scope).2
  | .sleep ms => s.sleep ms
  | .shutdown => s.shutdown

/-- The service after some operations. -/
def performAll (s : Service σ) (ops : List Operation) : Service σ := ops.foldl perform s

/-- Operations are performed one after the other. -/
theorem perform_all_append (s : Service σ) (ops more : List Operation) :
    s.performAll (ops ++ more) = (s.performAll ops).performAll more := List.foldl_append

/-! ## What operations are made of -/

/-- A relation between pipelines that is kept in an operation, where the jobs that are offered to
the pool are to be alone in their scope if `exclusive` is set. -/
structure IsServed (setup : Setup) (exclusive : Bool) (op : Operation)
    (R : Pipeline σ → Pipeline σ → Prop) : Prop extends Pipeline.IsScheduled setup R where
  warn : ∀ p, R p p.warn
  call : ∀ p, R p { p with loads := p.loads + 1 }
  append : ∀ p key e, R p { p with log := p.log.append key e }
  record : ∀ p scope tokens time, R p { p with counters := p.counters.record scope tokens time }
  remove : ∀ p key, op = .remove key →
    R p { p with log := p.log.remove key, counters := p.counters.forget key }
  offer : ∀ {p made scope job}, p.counters.admits scope exclusive = true →
    p.makeJob setup scope true exclusive = (job, made) → R p (made.enqueue job).2
  force : ∀ {p made scope job}, op = .summarize scope true →
    p.makeJob setup scope true false = (job, made) → R p (made.begin setup job false)
  dismiss : ∀ {p p'}, op = .shutdown → p.close.isClosing = true → R p.close p' →
    p'.isDrained = true → R p p'.dismiss
  abort : ∀ {p p'}, op = .shutdown → p.close.isClosing = true → R p.close p' → R p p'.abort

/-- The pipelines of the two services are related, and what is set is the same. -/
structure Served (R : Pipeline σ → Pipeline σ → Prop) (s s' : Service σ) : Prop where
  setup : s'.setup = s.setup
  config : s'.config = s.config
  control : s'.control = s.control
  pipeline : R s.pipeline s'.pipeline

section Served

variable {s : Service σ} {op : Operation} {R : Pipeline σ → Pipeline σ → Prop}

omit [SummaryStore σ] in
/-- A change of the pipeline is all that matters. -/
theorem Served.of_pipeline {p : Pipeline σ} (h : R s.pipeline p) :
    Served R s { s with pipeline := p } :=
  ⟨rfl, rfl, rfl, h⟩

variable (h : IsServed s.setup s.config.summary.config.singleFlight op R)
include h

/-! ## Jobs -/

/-- To do nothing is served. -/
theorem served_refl : Served R s s := ⟨rfl, rfl, rfl, h.refl _⟩

/-- So is the warning that there is no model. -/
theorem served_warn_no_model : Served R s s.warnNoModel := by
  unfold warnNoModel
  split
  · exact served_refl h
  · exact ⟨rfl, rfl, rfl, h.warn _⟩

/-- A job is offered only if its scope admits it. -/
theorem served_enqueue (scope : Scope) : Served R s (s.enqueue scope).2 := by
  have hanswered := s.answered_enqueue scope
  generalize (s.enqueue scope).1 = answer, (s.enqueue scope).2 = s' at hanswered ⊢
  cases hanswered with
  | disabled | idle | busy => exact served_refl h
  | modelless => exact served_warn_no_model h
  | offered henabled hmodel hevents hadmits hmade hanswer =>
      obtain rfl := congrArg Prod.snd hanswer
      cases hmade
      exact .of_pipeline (h.offer hadmits rfl)

/-- A summary that is asked for is served. -/
theorem served_summarize {scope : Scope} {force : Bool} (hop : op = .summarize scope force) :
    Served R s (s.summarize scope force).2 := by
  unfold summarize
  split
  · exact served_warn_no_model h
  · split
    · rename_i hforce
      have hbegin := h.force (hforce ▸ hop) (p := s.pipeline) rfl
      exact .of_pipeline (h.execute hbegin)
    · split
      · exact served_enqueue h scope
      · exact served_refl h

/-! ## Events -/

/-- An event that is counted is served, with the job that it may bring about. -/
theorem served_observe (e : Event) (scope : Scope) : Served R s (s.observe e scope) := by
  have hcount := h.record s.pipeline scope (s.cost e.message) e.timestamp
  unfold observe
  dsimp only
  split
  · -- A job is offered to the pipeline in which the event has been counted.
    obtain ⟨hsetup, hconfig, hcontrol, hoffer⟩ := served_enqueue
      (s := s.onPipeline fun p =>
        { p with counters := p.counters.record scope (s.cost e.message) e.timestamp }) h scope
    exact ⟨hsetup, hconfig, hcontrol, h.trans hcount hoffer⟩
  · exact .of_pipeline hcount

/-- An event that comes in is served. -/
theorem served_append (key : SessionKey) (e : Event) : Served R s (s.append key e).2 := by
  have hlog := h.append s.pipeline key e
  -- The event is counted for one scope after the other, and each may bring about a job.
  have hobserve (scopes : List Scope) {s' : Service σ} (hserved : Served R s s') :
      Served R s (scopes.foldl (·.observe e ·) s') := by
    induction scopes generalizing s' with
    | nil => exact hserved
    | cons scope scopes ih =>
        have h' : IsServed s'.setup s'.config.summary.config.singleFlight op R := by
          rw [hserved.setup, hserved.config]
          exact h
        obtain ⟨hsetup, hconfig, hcontrol, hnext⟩ := served_observe h' e scope
        exact ih ⟨hsetup.trans hserved.setup, hconfig.trans hserved.config,
          hcontrol.trans hserved.control, h.trans hserved.pipeline hnext⟩
  exact hobserve _ (.of_pipeline hlog)

/-! ## Requests -/

/-- The load that a request makes is served. -/
theorem served_carried (scope : Scope) : Served R s (s.carried scope).2 := by
  have hload := h.load h.call s.pipeline scope
  unfold carried
  split
  · split
    · rename_i hresult
      rw [hresult] at hload
      exact .of_pipeline hload
    · rename_i hresult
      rw [hresult] at hload
      exact .of_pipeline (h.trans hload (h.warn _))
  · exact served_refl h

end Served

/-- A relation that is kept in all that an operation is made of is kept in the operation. -/
theorem served_perform {s : Service σ} {op : Operation} {R : Pipeline σ → Pipeline σ → Prop}
    (h : IsServed s.setup s.config.summary.config.singleFlight op R) :
    Served R s (s.perform op) := by
  cases op with
  | append key e => exact served_append h key e
  | remove key => exact .of_pipeline (h.remove _ key rfl)
  | enqueue scope => exact served_enqueue h scope
  | summarize scope force => exact served_summarize h rfl
  | request scope system => exact served_carried h scope
  | summaryText scope => exact .of_pipeline (h.load h.call _ _)
  | sleep ms => exact .of_pipeline (h.sleep _ ms)
  | shutdown => exact .of_pipeline (h.shutdown (h.dismiss rfl) (h.abort rfl))

end Service

/-! ## A service that was just built -/

namespace ServiceParts

variable {σ : Type} {parts : ServiceParts σ} {s : Service σ}

/-- The service that is made of parts, when the template of its prompts has been read. -/
def assembled (parts : ServiceParts σ) (template : PromptTemplate) : Service σ where
  config := parts.config
  setup :=
    { summarizer := parts.summarizer.getD .absent
      link := parts.link
      template
      timeout := .ofSeconds parts.config.pool.jobTimeout
      start := parts.start
      origin := parts.origin }
  checker := parts.checker.getD parts.config.summary.config.checker
  cost := parts.cost
  control := parts.control
  pipeline := .fresh parts.store (parts.summarizer.map fun _ => parts.config.pool)

/-- A service is built if its configuration can be worked with, the template can be read, and a
model has something to run on. -/
theorem build_eq_ok_iff :
    parts.build = .ok s ↔ parts.config.validate = .ok () ∧
      ∃ template, parts.config.summary.config.prompt = .ok template ∧
        (parts.summarizer.isSome && !parts.hasRuntime) = false ∧ s = parts.assembled template := by
  unfold build assembled Pipeline.fresh
  cases hvalid : parts.config.validate with
  | error reason => exact iff_of_false nofun fun h => nomatch h.1
  | ok =>
      cases hprompt : parts.config.summary.config.prompt with
      | error reason => exact iff_of_false nofun fun ⟨_, _, h, _⟩ => nomatch h
      | ok template =>
          cases hruntime : parts.summarizer.isSome && !parts.hasRuntime with
          | true => simp [bind, Except.bind, throw, throwThe, MonadExceptOf.throw]
          | false =>
              simp [bind, Except.bind, pure, Except.pure, eq_comm, Option.map_map,
                Function.comp_def]

/-- A service that was just built has a pipeline in which nothing has happened yet. -/
theorem build_pipeline (hbuild : parts.build = .ok s) :
    s.pipeline = .fresh parts.store (parts.summarizer.map fun _ => parts.config.pool) ∧
      s.control = parts.control ∧ s.config = parts.config := by
  obtain ⟨-, template, -, -, rfl⟩ := build_eq_ok_iff.1 hbuild
  exact ⟨rfl, rfl, rfl⟩

/-- Its checker is the one that was given, or else that of the configuration. -/
theorem build_checker (hbuild : parts.build = .ok s) :
    s.checker = parts.checker.getD parts.config.summary.config.checker ∧ s.cost = parts.cost := by
  obtain ⟨-, template, -, -, rfl⟩ := build_eq_ok_iff.1 hbuild
  exact ⟨rfl, rfl⟩

end ServiceParts

end Transcript
