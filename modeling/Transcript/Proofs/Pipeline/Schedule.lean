import Transcript.Proofs.Pipeline.Chronicle
import Transcript.Proofs.Pipeline.Turns

/-!
# Schedules are made of steps

The order that `Transcript.Pipeline.Timeline` puts the steps of a pipeline in is one of many. Here
it is shown of each part of it that it can be taken apart into steps: `Leads setup p p'` says that a
chronicle of `p` can be continued to one of `p'`, without a removal. So what holds after any number
of steps holds for this order in particular.
-/

namespace Transcript.Pipeline

variable {σ : Type} [SummaryStore σ] [LawfulStore σ]

/-- Steps that remove no session lead from one pipeline to the other. -/
def Leads (setup : Setup) (p p' : Pipeline σ) : Prop :=
  ∀ c : Chronicle σ, c.pipeline = p →
    ∃ c' : Chronicle σ, Chronicle.Steps setup c c' ∧ c'.pipeline = p' ∧ c'.epoch = c.epoch

namespace Leads

variable {setup : Setup} {p p' p'' : Pipeline σ}

/-- There may be no steps at all. -/
theorem refl (p : Pipeline σ) : Leads setup p p := by
  intro c hc
  exact ⟨c, .refl, hc, rfl⟩

/-- Steps may follow on others. -/
theorem trans (h : Leads setup p p') (h' : Leads setup p' p'') : Leads setup p p'' := by
  intro c hc
  obtain ⟨d, hsteps, hd, hepoch⟩ := h c hc
  obtain ⟨e, hsteps', he, hepoch'⟩ := h' d hd
  exact ⟨e, hsteps.trans hsteps', he, hepoch'.trans hepoch⟩

/-- It may be a single step, of which nothing is recorded. -/
theorem of_move (h : ∀ c : Chronicle σ, c.pipeline = p → Chronicle.Step setup c (c.move p')) :
    Leads setup p p' := by
  intro c hc
  exact ⟨c.move p', .single (h c hc), rfl, rfl⟩

/-- A quiet step is such a step. -/
theorem of_quiet (h : Quiet p p') : Leads setup p p' := by
  refine of_move fun c hc => ?_
  subst hc
  exact .quiet c h

end Leads

/-! ## Runs -/

variable (setup : Setup) {p : Pipeline σ} {run : Run}

/-- The end of a run is a quiet step. -/
theorem leads_finish (p : Pipeline σ) (run : Run) (outcome : Outcome) :
    Leads setup p (p.finish setup run.job run.byWorker outcome) :=
  .of_quiet (quiet_finish setup p run.job run.byWorker outcome)

/-- The end of the call to load the last summary leads on to the question, or to the end. -/
theorem leads_loaded (hrun : run ∈ p.runs) (hstage : run.stage.boundary? = none)
    (ending : Option (Ending Unit)) : Leads setup p (p.loaded setup run ending) := by
  rcases ending with _ | (value | reason | message)
  · exact leads_finish setup p run _
  · unfold loaded
    dsimp only
    split
    · rename_i previous hload
      by_cases hevents : p.log.eventsAfter run.job.scope.session run.job.scope.filter
          (previous.map Summary.coveredUntil) = []
      · exact .of_quiet (quiet_ask setup p run previous hevents)
      · -- Nothing comes between the load and the look at the log here, so both steps are taken.
        intro c hc
        subst hc
        have hcontent : c.content run.job.scope = previous := LawfulStore.load_ok hload
        have hsource : (c.load run.job).loaded run.job =
            some ⟨previous, c.stored run.job.scope⟩ := by
          rw [← hcontent]
          exact Function.update_self _ _ _
        refine ⟨(c.load run.job).ask setup run ⟨previous, c.stored run.job.scope⟩, ?_, rfl, rfl⟩
        exact .tail (.single (.load c hrun hstage hload)) (.ask _ hrun hstage hsource hevents)
    · exact leads_finish setup p run _
  · exact leads_finish setup p run _
  · exact leads_finish setup p run _

/-- The answer of the model leads on to the store, or to the end. -/
theorem leads_answered (hrun : run ∈ p.runs) {boundary : Nat}
    {ending : Option (Ending ModelOutput)} (hstage : run.stage = .asking boundary ending) :
    Leads setup p (p.answered setup run boundary ending) := by
  rcases ending with _ | (output | reason | message)
  · exact leads_finish setup p run _
  · unfold answered
    refine .of_move fun c hc => ?_
    subst hc
    exact .answer c output hrun hstage
  · exact leads_finish setup p run _
  · exact leads_finish setup p run _

/-- After the call to store the summary the job ends in any case. -/
theorem leads_stored (hrun : run ∈ p.runs) {summary : Summary} {ending : Ending Unit}
    (hstage : run.stage = .storing summary ending) :
    Leads setup p (p.stored setup run summary ending) := by
  rcases ending with value | reason | message
  · have hstore : Leads setup p
        { p with store := (SummaryStore.store p.store run.job.scope summary).2 } := by
      intro c hc
      subst hc
      exact ⟨c.store run.job summary, .single (.store c hrun hstage), rfl, rfl⟩
    unfold stored
    dsimp only
    generalize SummaryStore.store p.store run.job.scope summary = result at *
    obtain ⟨outcome, store⟩ := result
    cases outcome with
    | ok value => exact hstore.trans (leads_finish setup _ run _)
    | error f => exact hstore.trans (leads_finish setup _ run _)
  · exact leads_finish setup _ run _
  · exact leads_finish setup _ run _

/-- A run goes on in steps, whatever it waits for. -/
theorem leads_resume (hrun : run ∈ p.runs) : Leads setup p (p.resume setup run) := by
  unfold resume
  split
  · rename_i ending hstage
    exact leads_loaded setup hrun (by rw [hstage]; rfl) ending
  · rename_i boundary ending hstage
    exact leads_answered setup hrun hstage
  · rename_i summary ending hstage
    exact leads_stored setup hrun hstage

/-! ## The order of events -/

/-- So whatever is put together from turns is put together from steps. -/
theorem is_scheduled_leads : IsScheduled setup (Leads (σ := σ) setup) where
  refl := .refl
  trans := .trans
  turn p clock := .of_quiet (quiet_turn p clock)
  resume := leads_resume setup
  take _ := .of_quiet (quiet_take setup _ _)

/-- To load a summary leads on by quiet steps. -/
theorem leads_load (p : Pipeline σ) (scope : Scope) : Leads setup p (p.load setup scope).2 :=
  (is_scheduled_leads setup).load (fun _ => .of_quiet (.of_same_runs rfl rfl rfl rfl)) p scope

omit [LawfulStore σ] in
/-- A load that succeeds gives what is in the store when it is over. -/
theorem load_ok {scope : Scope} {found : Option Summary}
    (hload : (p.load setup scope).1 = .ok found) :
    SummaryStore.load (p.load setup scope).2.store scope = .ok found := by
  unfold load at hload ⊢
  dsimp only at hload ⊢
  split at hload
  · exact hload
  · cases hload
  · cases hload

end Transcript.Pipeline
