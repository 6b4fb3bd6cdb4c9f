import Transcript.Proofs.Service.Handover

/-!
# Services with summaries switched off

If summaries are switched off no event makes one due, and whoever asks for one is refused. So no job
is ever made, the model is never asked and nothing is stored (`Service.Course.unused`). There is one
way around the switch, though: a caller who forces a summary gets one if there is a model
(`Service.unused_iff`).
-/

namespace Transcript

/-- No summary was ever made or asked for: no job was made, the model was given no prompt, nothing
was to be stored, and the store is the one that there was at first. -/
structure Pipeline.Unused {σ : Type} (store : σ) (p : Pipeline σ) : Prop where
  created : p.created = 0
  runs : p.runs = []
  queue : p.queue = []
  outcomes : p.outcomes = []
  prompts : p.prompts = []
  stores : p.stores = 0
  store : p.store = store

namespace Pipeline

variable {σ : Type} {store : σ} {p : Pipeline σ}

/-- A pipeline that was just set up is unused. -/
theorem unused_fresh (store : σ) (pool : Option PoolConfig) : (fresh store pool).Unused store :=
  ⟨rfl, rfl, by cases pool <;> rfl, rfl, rfl, rfl, rfl⟩

namespace Unused

variable (h : p.Unused store)
include h

/-- The clock, the events and what is known about the scopes do not matter. -/
theorem alter (clock : Nat) (log : SessionLog) (counters : TriggerCounters Scope.place)
    (loads warnings : Nat) : { p with clock, log, counters, loads, warnings }.Unused store :=
  ⟨h.created, h.runs, h.queue, h.outcomes, h.prompts, h.stores, h.store⟩

/-- A change of the pool that leaves no jobs in it. -/
theorem on_pool {f : Pool → Pool} (hf : (p.onPool f).queue = []) : (p.onPool f).Unused store :=
  ⟨h.created, h.runs, hf, h.outcomes, h.prompts, h.stores, h.store⟩

/-- There are no jobs. -/
theorem jobs_eq_nil : p.jobs = [] := by
  unfold jobs tickets
  rw [h.queue, h.runs]
  rfl

end Unused

end Pipeline

namespace Service

variable {σ : Type} {s s' : Service σ} {store : σ}

/-! ## What is refused -/

/-- An event is counted, but it makes nothing due. -/
theorem observe_disabled (hdisabled : s.config.summary.enabled = false) (e : Event)
    (scope : Scope) : s.observe e scope = s.counted e scope := by
  have hsilent : s.fires e scope = false := by
    unfold fires
    rw [hdisabled]
    rfl
  rw [observe_eq, hsilent]
  exact if_neg Bool.false_ne_true

/-- A request for a job is skipped, and changes nothing. -/
theorem enqueue_disabled (hdisabled : s.config.summary.enabled = false) (scope : Scope) :
    s.enqueue scope = (.skipped .disabled, s) := by
  unfold enqueue
  rw [hdisabled]
  rfl

/-- Events are counted, but they bring about no jobs. -/
theorem unused_observe_all (hdisabled : s.config.summary.enabled = false)
    (hunused : s.pipeline.Unused store) (e : Event) (scopes : List Scope) :
    (scopes.foldl (·.observe e ·) s).pipeline.Unused store := by
  induction scopes generalizing s with
  | nil => exact hunused
  | cons scope scopes ih =>
      rw [List.foldl_cons, observe_disabled hdisabled]
      exact ih hdisabled (hunused.alter ..)

variable [SummaryStore σ] {first : Service σ} {history news : List Happening}

/-! ## Without force -/

/-- No step makes use of summaries, but the one that forces a summary. -/
theorem Step.unused (h : Step s news s') (hdisabled : s.config.summary.enabled = false)
    (hforced : s.hasModel = false ∨ ∀ job, .forced job ∉ news) (hunused : s.pipeline.Unused store) :
    s'.pipeline.Unused store := by
  cases h with
  | append key e =>
      have hlogged : (s.logged key e).pipeline.Unused store := hunused.alter ..
      exact unused_observe_all (s := s.logged key e) hdisabled hlogged e (scopesOf key e.branch)
  | remove key =>
      exact hunused.alter ..
  | enqueue scope =>
      rw [enqueue_disabled hdisabled]
      exact hunused
  | force hmodel hmade =>
      rcases hforced with hnone | hnever
      · rw [hmodel] at hnone
        cases hnone
      · exact absurd List.mem_cons_self (hnever _)
  | turn hturn =>
      have hjob := hturn.mem_jobs
      rw [hunused.jobs_eq_nil] at hjob
      cases hjob
  | pass clock loads warnings warned =>
      exact hunused.alter ..
  | close =>
      have hqueue : s.pipeline.close.queue = s.pipeline.queue :=
        Pipeline.queue_on_pool _ fun _ => rfl
      exact hunused.on_pool (hqueue.trans hunused.queue)
  | dismiss hclosing hdrained => exact hunused.on_pool (Pipeline.queue_dissolve _)
  | abort hclosing =>
      have hruns : s.pipeline.runs.filter (!·.byWorker) = [] := by rw [hunused.runs]; rfl
      exact ⟨hunused.created, hruns, Pipeline.queue_dissolve s.pipeline, hunused.outcomes,
        hunused.prompts, hunused.stores, hunused.store⟩

/-- There is a model just if there is one among the parts of the service. -/
theorem Course.has_model_eq {parts : ServiceParts σ} (hbuild : parts.build = .ok first)
    (hcourse : Course first history s) : s.hasModel = parts.summarizer.isSome := by
  obtain ⟨hfirst, -, -⟩ := ServiceParts.build_pipeline hbuild
  obtain ⟨l, hsteps, -⟩ := hcourse.exists_ledger (hfirst ▸ Pipeline.distinct_fresh _ _)
  rw [hfirst] at hsteps
  unfold hasModel
  rw [hsteps.pool_eq, Option.isSome_map, Option.isSome_map]

/-- So a service that is switched off makes no use of summaries in its whole course, unless one is
forced. -/
theorem Course.unused {parts : ServiceParts σ} (hbuild : parts.build = .ok first)
    (hdisabled : parts.config.summary.enabled = false) (hcourse : Course first history s)
    (hforced : parts.summarizer = none ∨ ∀ job, .forced job ∉ history) :
    s.pipeline.Unused parts.store := by
  obtain ⟨hfirst, -, hconfig⟩ := ServiceParts.build_pipeline hbuild
  induction hcourse with
  | start =>
      rw [hfirst]
      exact Pipeline.unused_fresh _ _
  | @next history news s s' hcourse hstep ih =>
      have hdisabled' : s.config.summary.enabled = false := by
        rw [hcourse.settings.config, hconfig]
        exact hdisabled
      refine hstep.unused hdisabled' ?_ (ih (hforced.imp_right fun h job => ?_))
      · refine hforced.imp (fun hnone => ?_) fun h job hjob => h job (List.mem_append_right _ hjob)
        rw [hcourse.has_model_eq hbuild, hnone]
        rfl
      · exact fun hjob => h job (List.mem_append_left _ hjob)

/-! ## With force -/

/-- A caller who forces a summary has a job made, whether summaries are on or not. -/
theorem created_lt_of_force (hdistinct : s.pipeline.Distinct) (hmodel : s.hasModel = true)
    (scope : Scope) : s.pipeline.created < (s.summarize scope true).2.pipeline.created := by
  generalize hmade : s.trackedJob scope false = result
  obtain ⟨job, made⟩ := result
  have hnumber : made.pipeline.created = s.pipeline.created + 1 := by
    cases hmade
    rfl
  have hsetup : made.setup = s.setup := (calm_tracked_job hmade).1.settings.setup
  have hbegin : Step s _ (made.onPipeline (·.begin s.setup job false)) := .force hmodel hmade
  obtain ⟨l, hsteps, -⟩ := hbegin.posts hdistinct
  have hscheduled : Pipeline.IsScheduled s.setup
      (Pipeline.Posts (σ := σ) s.setup true fun _ => True) :=
    Pipeline.is_scheduled_posts fun _ _ => trivial
  obtain ⟨m, hsteps', -⟩ := hscheduled.execute (.refl _) (hsteps.distinct hdistinct)
  have hle := hsteps'.created_le
  rw [Pipeline.created_begin, hnumber] at hle
  rw [summarize_forced hmade hmodel, hsetup]
  exact hle

/-- Whatever a caller does with a service whose summaries are switched off, no summary is made or
asked for, exactly if there is no model or the caller never forces a summary. -/
theorem unused_iff {parts : ServiceParts σ} (hbuild : parts.build = .ok s)
    (hdisabled : parts.config.summary.enabled = false) (ops : List Operation) :
    (s.performAll ops).pipeline.Unused parts.store ↔
      parts.summarizer = none ∨ ∀ scope, .summarize scope true ∉ ops := by
  constructor
  · intro hunused
    by_contra hforced
    simp only [not_or, not_forall, not_not] at hforced
    obtain ⟨hsummarizer, scope, hmem⟩ := hforced
    obtain ⟨before, after, rfl⟩ := List.append_of_mem hmem
    obtain ⟨history, hcourse, -⟩ := exists_course hbuild before
    have hmodel : (s.performAll before).hasModel = true := by
      rw [hcourse.has_model_eq hbuild]
      exact Option.isSome_iff_ne_none.2 hsummarizer
    -- The forced job is made, and the number of jobs only goes up after that.
    obtain ⟨l, hbefore, -⟩ := exists_ledger_of_build hbuild before
    have hlt := created_lt_of_force (hbefore.distinct (Pipeline.distinct_fresh _ _)) hmodel scope
    obtain ⟨m, hforce, -⟩ := exists_ledger_of_build hbuild (before ++ [.summarize scope true])
    obtain ⟨n, hafter, -⟩ := (s.performAll (before ++ [.summarize scope true])).exists_ledger after
      (hforce.distinct (Pipeline.distinct_fresh _ _))
    have hle := hafter.created_le
    have hnone := hunused.created
    rw [← perform_all_append, List.append_assoc, List.singleton_append, hnone,
      perform_all_append] at hle
    exact absurd (Nat.lt_of_lt_of_le hlt hle) (Nat.not_lt_zero _)
  · intro hforced
    obtain ⟨history, hcourse, hbrings⟩ := exists_course hbuild ops
    refine hcourse.unused hbuild hdisabled (hforced.imp_right fun hnever job hjob => ?_)
    obtain ⟨op, hop, hbrought⟩ := hbrings _ hjob
    cases hbrought
    exact hnever job.scope hop

end Service

/-- Parts with a model, but with summaries switched off. -/
def ServiceParts.silent : ServiceParts MemoryStore :=
  { ServiceParts.terse with config.summary.enabled := false }

/-- A service with a model, but with summaries switched off. -/
def Service.silent : Service MemoryStore :=
  { Service.terse with
    config := ServiceParts.silent.config
    control := ServiceParts.silent.control }

namespace Service

/-- It is what is built from these parts. -/
theorem build_silent : ServiceParts.silent.build = .ok silent :=
  ServiceParts.build_eq_ok_iff.2
    ⟨by decide +kernel, { template := conversationPlace }, by decide +kernel, rfl, rfl⟩

/-- A caller who does all there is to do, but forces nothing. -/
theorem unused_iff_unforced :
    let scope := Scope.whole .desk
    ServiceParts.silent.build = .ok silent ∧ ServiceParts.silent.config.summary.enabled = false ∧
      ServiceParts.silent.summarizer.isSome = true ∧
      (silent.performAll [.append .desk (.saying "x"), .enqueue scope, .summarize scope false,
        .request scope none, .remove .desk, .shutdown]).pipeline.Unused {} := by
  intro scope
  refine ⟨build_silent, rfl, rfl, ?_⟩
  exact (unused_iff build_silent rfl _).2 (.inr (by simp))

/-- A caller forces a summary. The model is asked, and its answer is stored. -/
theorem switched_off_summary_forced :
    let scope := Scope.whole .desk
    let s := silent.performAll [.append .desk (.saying "x"), .summarize scope true]
    ServiceParts.silent.build = .ok silent ∧ ServiceParts.silent.config.summary.enabled = false ∧
      s.pipeline.created = 1 ∧ s.pipeline.prompts.length = 1 ∧ s.pipeline.stores = 1 ∧
      (LawfulStore.content s.pipeline.store scope).map Summary.text = some "S" := by
  intro scope s
  refine ⟨build_silent, rfl, ?_, ?_, ?_, ?_⟩
  · decide +kernel
  · decide +kernel
  · decide +kernel
  · decide +kernel

end Service

end Transcript
