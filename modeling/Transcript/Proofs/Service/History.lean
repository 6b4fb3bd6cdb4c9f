import Transcript.Proofs.Pipeline.Schedule
import Transcript.Proofs.Service.Operations

/-!
# The chronicle of a service

Whatever a caller does with a service that was just built, in whatever order, its pipeline goes
through steps (`Service.exists_chronicle`), and only the removals of a session count as removals of
it.
-/

namespace Transcript.Service

variable {σ : Type} [SummaryStore σ] [LawfulStore σ]

/-- A job is made quietly. -/
theorem leads_make_job {setup : Setup} {p made : Pipeline σ} {job : Job} {scope : Scope}
    {tracked exclusive : Bool} (hmade : p.makeJob setup scope tracked exclusive = (job, made)) :
    Pipeline.Leads setup p made := by
  rw [Pipeline.make_job_eq, Prod.mk.injEq] at hmade
  rw [← hmade.2]
  exact .of_quiet (.of_same_runs rfl rfl rfl rfl)

/-- What an operation does to a service, it does in steps, unless it is a removal. -/
theorem is_served_leads (setup : Setup) (exclusive : Bool) {op : Operation}
    (hop : ∀ key, op ≠ .remove key) :
    IsServed setup exclusive op (Pipeline.Leads (σ := σ) setup) where
  toIsScheduled := Pipeline.is_scheduled_leads setup
  warn _ := .of_quiet (.of_same_runs rfl rfl rfl rfl)
  call _ := .of_quiet (.of_same_runs rfl rfl rfl rfl)
  append p key e := by
    intro c hc
    subst hc
    exact ⟨c.append key e, .single (.append c key e), rfl, rfl⟩
  record _ _ _ _ := .of_quiet (.of_same_runs rfl rfl rfl rfl)
  remove _ key hremove := absurd hremove (hop key)
  offer _ hmade := (leads_make_job hmade).trans (.of_quiet (Pipeline.quiet_enqueue _ _))
  force _ hmade := (leads_make_job hmade).trans (.of_quiet (Pipeline.quiet_begin setup _ _ false))
  dismiss _ _ hwait _ :=
    (Pipeline.Leads.of_quiet (Pipeline.quiet_on_pool _ _)).trans
      (hwait.trans (.of_quiet (Pipeline.quiet_on_pool _ _)))
  abort _ _ hwait :=
    (Pipeline.Leads.of_quiet (Pipeline.quiet_on_pool _ _)).trans
      (hwait.trans (.of_quiet (Pipeline.quiet_abort _)))

/-! ## Runs -/

/-- A session is removed in steps, the first of which is the removal. -/
theorem exists_remove (s : Service σ) (key : SessionKey) {c : Chronicle σ}
    (hc : c.pipeline = s.pipeline) :
    ∃ c' : Chronicle σ, Chronicle.Steps s.setup c c' ∧ c'.pipeline = (s.remove key).2.pipeline ∧
      c'.epoch = Function.update c.epoch key (c.epoch key + 1) := by
  refine ⟨(c.remove key).move (s.remove key).2.pipeline, ?_, rfl, rfl⟩
  · have hquiet : (c.remove key).pipeline.Quiet (s.remove key).2.pipeline := by
      show Pipeline.Quiet { c.pipeline with log := c.pipeline.log.remove key } _
      rw [hc]
      exact .of_same_runs rfl rfl rfl rfl
    exact .tail (.single (.remove c key)) (.quiet _ hquiet)

/-- What the caller does is some steps of the chronicle. A removal is a step of its own kind, and
all else leaves the epochs alone. -/
theorem exists_chronicle_of_perform (s : Service σ) (op : Operation) {c : Chronicle σ}
    (hc : c.pipeline = s.pipeline) :
    ∃ d : Chronicle σ, Chronicle.Steps s.setup c d ∧ d.pipeline = (s.perform op).pipeline ∧
      (s.perform op).setup = s.setup ∧ (s.perform op).control = s.control ∧
      ∀ key, d.epoch key = c.epoch key + if op = .remove key then 1 else 0 := by
  by_cases hop : ∃ key, op = .remove key
  · obtain ⟨removed, rfl⟩ := hop
    obtain ⟨d, hsteps, hd, hepoch⟩ := exists_remove s removed hc
    refine ⟨d, hsteps, hd, rfl, rfl, ?_⟩
    intro key
    rw [hepoch]
    by_cases hkey : key = removed
    · rw [hkey, Function.update_self, if_pos rfl]
    · have hne : Operation.remove removed ≠ .remove key := by
        intro heq
        cases heq
        exact hkey rfl
      rw [Function.update_of_ne hkey, if_neg hne, Nat.add_zero]
  · have hno : ∀ key, op ≠ .remove key := fun key heq => hop ⟨key, heq⟩
    have hleads := served_perform (is_served_leads s.setup s.config.summary.config.singleFlight hno)
    obtain ⟨d, hsteps, hd, hepoch⟩ := hleads.pipeline c hc
    refine ⟨d, hsteps, hd, hleads.setup, hleads.control, ?_⟩
    intro key
    rw [hepoch, if_neg (hno key), Nat.add_zero]

/-- Whatever a caller does, the pipeline of the service goes through steps, and a session is removed
as often as the caller has it removed. -/
theorem exists_chronicle (s : Service σ) (ops : List Operation) {c : Chronicle σ}
    (hc : c.pipeline = s.pipeline) :
    ∃ c' : Chronicle σ, Chronicle.Steps s.setup c c' ∧
      c'.pipeline = (s.performAll ops).pipeline ∧ (s.performAll ops).setup = s.setup ∧
      (s.performAll ops).control = s.control ∧
      ∀ key, c'.epoch key = c.epoch key + ops.count (.remove key) := by
  induction ops generalizing s c with
  | nil => exact ⟨c, .refl, hc, rfl, rfl, fun _ => rfl⟩
  | cons op ops ih =>
      obtain ⟨d, hsteps, hd, hsetup, hcontrol, hepoch⟩ := exists_chronicle_of_perform s op hc
      obtain ⟨c', hsteps', hc', hsetup', hcontrol', hepoch'⟩ := ih (s.perform op) hd
      rw [hsetup] at hsteps' hsetup'
      rw [hcontrol] at hcontrol'
      refine ⟨c', hsteps.trans hsteps', hc', hsetup', hcontrol', ?_⟩
      intro key
      rw [hepoch' key, hepoch key, List.count_cons]
      simp only [beq_iff_eq]
      omega

end Transcript.Service
