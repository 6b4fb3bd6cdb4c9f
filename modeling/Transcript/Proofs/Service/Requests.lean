import Transcript.Proofs.Pipeline.Outturn
import Transcript.Proofs.Service.Operations

/-!
# What requests and events leave alone

A request for a job changes neither the events nor the summaries, whatever the answer, and of what
is known about the scopes it changes at most that its scope is known afterwards
(`Service.enqueue_spec`). An event that comes in is counted for the whole session and for its
branch, and for no other scope, whatever becomes of the jobs that it brings about
(`Service.append_spec`).
-/

namespace Transcript

/-- Whether a job was made. -/
def EnqueueOutcome.madeJob : EnqueueOutcome → Bool
  | .enqueued _ | .dropped _ => true
  | .skipped _ => false

namespace Service

variable {σ : Type}

/-! ## What stays the same -/

/-- What is set about the services is the same. -/
structure SameSettings (s s' : Service σ) : Prop where
  setup : s'.setup = s.setup
  config : s'.config = s.config
  checker : s'.checker = s.checker
  cost : s'.cost = s.cost

/-- The settings of a service are its own. -/
theorem SameSettings.refl (s : Service σ) : SameSettings s s := ⟨rfl, rfl, rfl, rfl⟩

/-- Settings that stay the same twice are the same. -/
theorem SameSettings.trans {s s' s'' : Service σ} (h : SameSettings s s')
    (h' : SameSettings s' s'') : SameSettings s s'' :=
  ⟨h'.setup.trans h.setup, h'.config.trans h.config, h'.checker.trans h.checker,
    h'.cost.trans h.cost⟩

/-- What comes of a request for a job, or of the count of an event: the settings are the same, and
so are the events, the summaries, the prompts and the outcomes. -/
structure Calm (s s' : Service σ) : Prop where
  settings : SameSettings s s'
  quiet : Pipeline.Quiet s.pipeline s'.pipeline
  outcomes : s'.pipeline.outcomes = s.pipeline.outcomes

variable {s s' s'' : Service σ}

/-- To do nothing is calm. -/
theorem Calm.refl (s : Service σ) : Calm s s := ⟨.refl s, .refl _, rfl⟩

/-- What is calm may follow on what is calm. -/
theorem Calm.trans (h : Calm s s') (h' : Calm s' s'') : Calm s s'' :=
  ⟨h.settings.trans h'.settings, h.quiet.trans h'.quiet, h'.outcomes.trans h.outcomes⟩

/-- A change of the pipeline is all that matters. -/
theorem Calm.of_pipeline {p : Pipeline σ} (hquiet : Pipeline.Quiet s.pipeline p)
    (houtcomes : p.outcomes = s.pipeline.outcomes) : Calm s { s with pipeline := p } :=
  ⟨⟨rfl, rfl, rfl, rfl⟩, hquiet, houtcomes⟩

/-! ## Requests -/

/-- The warning that there is no model is calm. -/
theorem calm_warn_no_model (s : Service σ) : Calm s s.warnNoModel := by
  unfold warnNoModel
  split
  · exact .refl s
  · exact ⟨⟨rfl, rfl, rfl, rfl⟩, .of_same_runs rfl rfl rfl rfl, rfl⟩

/-- No job ends when another is put into the queue. -/
theorem outcomes_enqueue {p p' : Pipeline σ} {job : Job} {answer : EnqueueOutcome}
    (henqueue : p.enqueue job = (answer, p')) : p'.outcomes = p.outcomes := by
  rcases Pipeline.enqueue_cases henqueue with
    ⟨pool, -, -, -, -, rfl⟩ | ⟨pool, -, -, -, -, rfl⟩ | ⟨-, -, rfl⟩
  · rfl
  · rw [Pipeline.release_eq]
    rfl
  · rw [Pipeline.release_eq]

/-- What is known about a scope does not depend on the jobs in the queue. -/
theorem account_enqueue {p p' : Pipeline σ} {job : Job} {answer : EnqueueOutcome}
    (henqueue : p.enqueue job = (answer, p')) (scope : Scope) :
    p'.account scope = p.account scope := by
  rcases Pipeline.enqueue_cases henqueue with
    ⟨pool, -, -, -, -, rfl⟩ | ⟨pool, -, -, -, -, rfl⟩ | ⟨-, -, rfl⟩
  · rfl
  · exact Pipeline.account_release _ job scope
  · exact Pipeline.account_release p job scope

/-- A pool answers to the offer of a job, and skips none. -/
theorem made_job_of_enqueue {p p' : Pipeline σ} {job : Job} {answer : EnqueueOutcome}
    (henqueue : p.enqueue job = (answer, p')) : answer.madeJob = true := by
  rcases Pipeline.enqueue_cases henqueue with
    ⟨pool, -, -, -, rfl, -⟩ | ⟨pool, -, -, -, rfl, -⟩ | ⟨-, rfl, -⟩ <;> rfl

/-- To make a job is calm and takes no time, and the job is one of the scope. -/
theorem calm_tracked_job {s made : Service σ} {scope : Scope} {exclusive : Bool} {job : Job}
    (hmade : s.trackedJob scope exclusive = (job, made)) :
    Calm s made ∧ made.pipeline.clock = s.pipeline.clock ∧ job.scope = scope := by
  cases hmade
  exact ⟨.of_pipeline (.of_same_runs rfl rfl rfl rfl) rfl, rfl, rfl⟩

/-- When a job is made its scope is known. -/
theorem account_tracked_job {s made : Service σ} {scope : Scope} {exclusive : Bool} {job : Job}
    (hmade : s.trackedJob scope exclusive = (job, made))
    (hadmits : s.pipeline.counters.admits scope exclusive = true) (other : Scope) :
    made.pipeline.account other =
      if other = scope then some ((s.pipeline.account other).getD {})
      else s.pipeline.account other := by
  cases hmade
  exact s.pipeline.counters.account_begin_job scope other hadmits

/-- Whatever the answer to a request, it leaves the events and summaries alone. Its scope is known
from then on, if a job was made, and nothing else is known about any scope than before. -/
theorem enqueue_spec (s : Service σ) (scope : Scope) :
    Calm s (s.enqueue scope).2 ∧ ∀ other, (s.enqueue scope).2.pipeline.account other =
      if other = scope ∧ (s.enqueue scope).1.madeJob then some ((s.pipeline.account other).getD {})
      else s.pipeline.account other := by
  have hanswered := s.answered_enqueue scope
  generalize (s.enqueue scope).1 = answer, (s.enqueue scope).2 = s' at hanswered ⊢
  cases hanswered with
  | disabled | idle | busy => exact ⟨.refl s, fun other => by simp [EnqueueOutcome.madeJob]⟩
  | modelless =>
      refine ⟨calm_warn_no_model s, fun other => ?_⟩
      unfold warnNoModel
      split <;> simp [EnqueueOutcome.madeJob, onPipeline, Pipeline.warn, Pipeline.account]
  | @offered job made answer p henabled hmodel hevents hadmits hmade hanswer =>
      have hquiet := Pipeline.quiet_enqueue made.pipeline job
      rw [hanswer] at hquiet
      have hoffer : Calm made { made with pipeline := p } :=
        .of_pipeline hquiet (outcomes_enqueue hanswer)
      refine ⟨(calm_tracked_job hmade).1.trans hoffer, fun other => ?_⟩
      rw [account_enqueue hanswer, made_job_of_enqueue hanswer, account_tracked_job hmade hadmits]
      simp only [and_true]

/-- A request changes the state of its own scope only. -/
theorem state_enqueue_of_ne (s : Service σ) {scope other : Scope} (hne : other ≠ scope) :
    (s.enqueue scope).2.state other = s.state other := by
  have hanswered := s.answered_enqueue scope
  generalize (s.enqueue scope).1 = answer, (s.enqueue scope).2 = s' at hanswered ⊢
  cases hanswered with
  | disabled | idle | busy => rfl
  | modelless =>
      unfold warnNoModel
      split <;> rfl
  | @offered job made answer p henabled hmodel hevents hadmits hmade hanswer =>
      have hstate : made.state other = s.state other := by
        cases hmade
        exact (s.pipeline.counters.snapshot_begin_job scope other _).trans (if_neg fun h => hne h.1)
      obtain ⟨-, -, hscope⟩ := calm_tracked_job hmade
      have hjob : other ≠ job.scope := hscope ▸ hne
      rw [← hstate]
      rcases Pipeline.enqueue_cases hanswer with
        ⟨pool, -, -, -, -, rfl⟩ | ⟨pool, -, -, -, -, rfl⟩ | ⟨-, -, rfl⟩
      · rfl
      · exact Pipeline.snapshot_release_of_ne _ _ hjob
      · exact Pipeline.snapshot_release_of_ne _ _ hjob

/-! ## Events -/

/-- The service after an event has been counted for a scope. -/
def counted (s : Service σ) (e : Event) (scope : Scope) : Service σ :=
  s.onPipeline fun p =>
    { p with counters := p.counters.record scope (s.cost e.message) e.timestamp }

/-- The service after an event has got its place in the log. -/
def logged (s : Service σ) (key : SessionKey) (e : Event) : Service σ :=
  s.onPipeline fun p => { p with log := p.log.append key e }

/-- To count an event is calm. -/
theorem calm_counted (s : Service σ) (e : Event) (scope : Scope) : Calm s (s.counted e scope) :=
  .of_pipeline (.of_same_runs rfl rfl rfl rfl) rfl

/-- Whether an event that comes in makes a summary of a scope due. -/
def fires (s : Service σ) (e : Event) (scope : Scope) : Bool :=
  s.config.summary.enabled && s.checker ((s.state scope).record (s.cost e.message) e.timestamp)

/-- An event is counted, and if that makes a summary due a job is requested. -/
theorem observe_eq (s : Service σ) (e : Event) (scope : Scope) :
    s.observe e scope =
      if s.fires e scope then ((s.counted e scope).enqueue scope).2 else s.counted e scope := by
  have hstate : (s.counted e scope).state scope =
      (s.state scope).record (s.cost e.message) e.timestamp :=
    (TriggerCounters.snapshot_record _ _ _ _ _).trans (if_pos rfl)
  unfold fires
  rw [← hstate]
  rfl

/-- An event that is observed is counted for its scope and for no other. -/
theorem observe_spec (s : Service σ) (e : Event) (scope : Scope) :
    Calm s (s.observe e scope) ∧ ∀ other, (s.observe e scope).pipeline.account other =
      if other = scope then
        some (((s.pipeline.account other).getD {}).record (s.cost e.message) e.timestamp)
      else s.pipeline.account other := by
  have hcounted := fun other =>
    s.pipeline.counters.account_record scope other (s.cost e.message) e.timestamp
  rw [observe_eq]
  split
  · obtain ⟨hcalm, haccount⟩ := (s.counted e scope).enqueue_spec scope
    refine ⟨(calm_counted s e scope).trans hcalm, fun other => ?_⟩
    have hbefore : (s.counted e scope).pipeline.account other =
        if other = scope then
          some (((s.pipeline.account other).getD {}).record (s.cost e.message) e.timestamp)
        else s.pipeline.account other := hcounted other
    rw [haccount, hbefore]
    by_cases hscope : other = scope
    · -- The scope is known since the event was counted, so the request adds nothing to its account.
      rw [if_pos hscope, Option.getD_some, ite_self]
    · rw [if_neg (fun h => hscope h.1)]
  · exact ⟨calm_counted s e scope, hcounted⟩

/-- An event that is counted for a scope changes the state of that scope only. -/
theorem state_observe_of_ne (s : Service σ) (e : Event) {scope other : Scope}
    (hne : other ≠ scope) :
    (s.observe e scope).state other = s.state other := by
  have hcounted : (s.counted e scope).state other = s.state other :=
    (s.pipeline.counters.snapshot_record scope other _ _).trans (if_neg hne)
  rw [observe_eq]
  split
  · exact (state_enqueue_of_ne _ hne).trans hcounted
  · exact hcounted

/-- An event that is observed in some scopes, one after the other, is counted for just these. -/
theorem observe_all_spec (e : Event) {scopes : List Scope} (hnodup : scopes.Nodup) (s : Service σ) :
    Calm s (scopes.foldl (·.observe e ·) s) ∧
      ∀ other, (scopes.foldl (·.observe e ·) s).pipeline.account other =
        if other ∈ scopes then
          some (((s.pipeline.account other).getD {}).record (s.cost e.message) e.timestamp)
        else s.pipeline.account other := by
  induction scopes generalizing s with
  | nil => exact ⟨.refl s, fun other => by simp⟩
  | cons scope scopes ih =>
      obtain ⟨hnew, hrest⟩ := List.nodup_cons.1 hnodup
      obtain ⟨hcalm, haccount⟩ := s.observe_spec e scope
      obtain ⟨hcalm', haccount'⟩ := ih hrest (s.observe e scope)
      refine ⟨hcalm.trans hcalm', fun other => ?_⟩
      rw [List.foldl_cons, haccount', haccount, hcalm.settings.cost]
      by_cases hscope : other = scope
      · subst hscope
        simp [hnew]
      · simp [hscope]

/-- The scopes that an event of a session is counted for: the whole session, and the branch of the
event. -/
theorem mem_scopes_of {key : SessionKey} {branch : String} {scope : Scope} :
    scope ∈ scopesOf key branch ↔
      scope.session = key ∧ (scope.filter = "" ∨ scope.filter = branch) := by
  obtain ⟨session, filter⟩ := scope
  unfold scopesOf Scope.whole
  split
  · rename_i hempty
    rw [String.isEmpty_iff] at hempty
    simp [hempty]
  · simp only [List.mem_cons, List.not_mem_nil, or_false, Scope.mk.injEq]
    constructor
    · rintro (⟨rfl, rfl⟩ | ⟨rfl, rfl⟩)
      · exact ⟨rfl, .inl rfl⟩
      · exact ⟨rfl, .inr rfl⟩
    · rintro ⟨rfl, rfl | rfl⟩
      · exact .inl ⟨rfl, rfl⟩
      · exact .inr ⟨rfl, rfl⟩

/-- The scopes of an event are distinct. -/
theorem nodup_scopes_of (key : SessionKey) (branch : String) : (scopesOf key branch).Nodup := by
  unfold scopesOf Scope.whole
  split
  · simp
  · rename_i hbranch
    rw [String.isEmpty_iff] at hbranch
    simp [Ne.symm hbranch]

/-- An event is counted when it has got its place in the log. -/
theorem append_spec (s : Service σ) (key : SessionKey) (e : Event) :
    Calm (s.logged key e) (s.append key e).2 ∧ ∀ other, (s.append key e).2.pipeline.account other =
      if other ∈ scopesOf key e.branch then
        some (((s.pipeline.account other).getD {}).record (s.cost e.message) e.timestamp)
      else s.pipeline.account other :=
  observe_all_spec e (nodup_scopes_of key e.branch) (s.logged key e)

end Service

end Transcript
