import Transcript.Proofs.Service.Course

/-!
# Schedules are courses

The order that `Transcript.Pipeline.Timeline` gives to the turns is one of many, so whatever a
caller does with a service, one thing after another, is a course of it (`Service.exists_course`).
-/

namespace Transcript

/-- What an operation may bring about. While the caller waits jobs may do something, whatever he has
called. -/
def Operation.Brings (op : Operation) : Happening → Prop
  | .appended key e => op = .append key e
  | .removed key => op = .remove key
  | .requested scope => op = .enqueue scope ∨ op = .summarize scope false
  | .forced job => op = .summarize job.scope true
  | .asked _ _ | .ended _ _ _ => True

/-- Whether it is a job that does something. -/
def Happening.isInner : Happening → Bool
  | .asked _ _ | .ended _ _ _ => true
  | _ => false

/-- What jobs do may come with every operation. -/
theorem Operation.brings_of_inner (op : Operation) {h : Happening} (hinner : h.isInner = true) :
    op.Brings h := by
  cases h with
  | asked | ended => trivial
  | _ => cases hinner

/-- In a turn it is its job that does something. -/
theorem Pipeline.is_inner_report {σ : Type} (setup : Setup) (job : Job) (p p' : Pipeline σ) :
    ∀ h ∈ p.report setup job p', h.isInner = true := by
  intro h hh
  rcases List.mem_append.1 hh with hasked | hended
  · obtain ⟨prompt, -, rfl⟩ := List.mem_map.1 hasked
    rfl
  · obtain ⟨outcome, -, rfl⟩ := List.mem_map.1 hended
    rfl

namespace Service

variable {σ : Type} [SummaryStore σ]

/-- There is a course from one pipeline to the other, whatever the rest of the service, in which
only jobs do something. It goes through steps with a ledger. -/
def Plays (setup : Setup) (p p' : Pipeline σ) : Prop :=
  p.Distinct → (∃ l, Pipeline.Steps setup true p l p') ∧
    ∀ s : Service σ, s.setup = setup → s.pipeline = p →
      ∃ history, Course s history { s with pipeline := p' } ∧ ∀ h ∈ history, h.isInner = true

namespace Plays

variable {setup : Setup} {p p' p'' : Pipeline σ}

/-- One course may follow on another. -/
theorem trans (h : Plays setup p p') (h' : Plays setup p' p'') : Plays setup p p'' := by
  intro hdistinct
  obtain ⟨⟨l, hsteps⟩, hcourse⟩ := h hdistinct
  obtain ⟨⟨m, hsteps'⟩, hcourse'⟩ := h' (hsteps.distinct hdistinct)
  refine ⟨⟨l ++ m, hsteps.trans hsteps'⟩, fun s hsetup hs => ?_⟩
  obtain ⟨history, hfirst, hinner⟩ := hcourse s hsetup hs
  obtain ⟨since, hlater, hinner'⟩ := hcourse' { s with pipeline := p' } hsetup rfl
  refine ⟨history ++ since, hfirst.trans hlater, fun e he => ?_⟩
  rcases List.mem_append.1 he with hearlier | hlast
  · exact hinner e hearlier
  · exact hinner' e hlast

/-- It may be a single step. -/
theorem of_step (hposts : Pipeline.Posts setup true (Entry.IsTold []) p p')
    (hstep : ∀ s : Service σ, s.setup = setup → s.pipeline = p →
      ∃ news, Step s news { s with pipeline := p' } ∧ ∀ h ∈ news, h.isInner = true) :
    Plays setup p p' := by
  intro hdistinct
  obtain ⟨l, hsteps, -⟩ := hposts hdistinct
  refine ⟨⟨l, hsteps⟩, fun s hsetup hs => ?_⟩
  obtain ⟨news, hnews, hinner⟩ := hstep s hsetup hs
  exact ⟨news, .single hnews, hinner⟩

/-- The clock may go on, and calls and warnings are counted. -/
theorem pass (p : Pipeline σ) (clock loads warnings : Nat) :
    Plays setup p { p with clock, loads, warnings } := by
  refine .of_step
    (Pipeline.posts_same (Entry.is_told_of_inner []) ⟨rfl, rfl, rfl, fun _ => rfl⟩) ?_
  rintro s - rfl
  exact ⟨[], .pass s clock loads warnings s.warned, by simp⟩

/-- A turn of a job is such a course. -/
theorem turn {job : Job} (h : p.JobTurn setup job p') : Plays setup p p' := by
  refine .of_step (h.posts []) ?_
  rintro s rfl rfl
  exact ⟨_, .turn h, Pipeline.is_inner_report _ _ _ _⟩

/-- The pool is closed, and after some time its workers go. -/
theorem of_parting (hclosing : p.close.isClosing = true) (hwait : Plays setup p.close p')
    (hposts : p'.isClosing = true → Pipeline.Posts setup true (Entry.IsTold []) p' p'')
    (hparting : ∀ s : Service σ, s.pipeline = p' → s.pipeline.isClosing = true →
      Step s [] { s with pipeline := p'' }) : Plays setup p p'' := by
  have hclose : Plays setup p p.close := by
    refine .of_step (.of_step (.close p) trivial) ?_
    rintro s - rfl
    exact ⟨[], .close s, by simp⟩
  intro hdistinct
  obtain ⟨⟨l, hsteps⟩, -⟩ := hclose hdistinct
  obtain ⟨⟨m, hsteps'⟩, -⟩ := hwait (hsteps.distinct hdistinct)
  have hstill := hsteps'.is_closing hclosing
  have hgone : Plays setup p' p'' := by
    refine .of_step (hposts hstill) ?_
    rintro s - rfl
    exact ⟨[], hparting s rfl hstill, by simp⟩
  exact (hclose.trans (hwait.trans hgone)) hdistinct

end Plays

/-- The parts of a schedule are courses. -/
theorem is_scheduled_plays (setup : Setup) : Pipeline.IsScheduled setup (Plays (σ := σ) setup) where
  refl p := Plays.pass p p.clock p.loads p.warnings
  trans := .trans
  turn p clock := Plays.pass p (max p.clock clock) p.loads p.warnings
  resume hrun := .turn (.resume hrun)
  take hnext := .turn (.take hnext)

/-- The caller waits while jobs do something. -/
theorem exists_course_of_plays {s : Service σ} {p : Pipeline σ} (h : Plays s.setup s.pipeline p)
    (hdistinct : s.pipeline.Distinct) (op : Operation) :
    ∃ history, Course s history { s with pipeline := p } ∧ ∀ h ∈ history, op.Brings h := by
  obtain ⟨-, hcourse⟩ := h hdistinct
  obtain ⟨history, hhistory, hinner⟩ := hcourse s rfl rfl
  exact ⟨history, hhistory, fun e he => op.brings_of_inner (hinner e he)⟩

/-- A job that the caller forces begins at once, and the caller waits for its end. -/
theorem exists_course_of_force {s made : Service σ} (hdistinct : s.pipeline.Distinct)
    {scope : Scope} {job : Job} (hmodel : s.hasModel = true)
    (hmade : s.trackedJob scope false = (job, made)) :
    ∃ history, Course s history { made with pipeline := made.pipeline.execute made.setup job } ∧
      ∀ h ∈ history, (Operation.summarize scope true).Brings h := by
  have hscheduled := is_scheduled_plays (σ := σ) s.setup
  obtain ⟨hcalm, -, hscope⟩ := calm_tracked_job hmade
  have hsetup : made.setup = s.setup := hcalm.settings.setup
  have hbegin : Step s _ (made.onPipeline (·.begin s.setup job false)) := .force hmodel hmade
  obtain ⟨l, hsteps, -⟩ := hbegin.posts hdistinct
  have hexecute : Plays s.setup (made.pipeline.begin s.setup job false)
      (made.pipeline.execute s.setup job) :=
    (hscheduled.proceed job.number _).trans (hscheduled.await _ job.number)
  obtain ⟨-, hcourse⟩ := hexecute (hsteps.distinct hdistinct)
  obtain ⟨history, hlater, hinner⟩ :=
    hcourse (made.onPipeline (·.begin s.setup job false)) hsetup rfl
  have hsame : made.pipeline.execute made.setup job = made.pipeline.execute s.setup job := by
    rw [hsetup]
  rw [hsame]
  refine ⟨_, (Course.single hbegin).trans hlater, fun h hh => ?_⟩
  rcases List.mem_append.1 hh with hfirst | hwait
  · rcases List.mem_cons.1 hfirst with rfl | hreport
    · exact hscope ▸ rfl
    · exact Operation.brings_of_inner _ (Pipeline.is_inner_report _ _ _ _ _ hreport)
  · exact Operation.brings_of_inner _ (hinner h hwait)

/-- A summary that is asked for comes about in a course. -/
theorem exists_course_of_summarize (s : Service σ) (hdistinct : s.pipeline.Distinct) (scope : Scope)
    (force : Bool) :
    ∃ history, Course s history (s.summarize scope force).2 ∧
      ∀ h ∈ history, (Operation.summarize scope force).Brings h := by
  unfold summarize
  split
  · unfold warnNoModel
    split
    · exact ⟨[], .start, by simp⟩
    · exact ⟨[], .single (.pass s s.pipeline.clock s.pipeline.loads (s.pipeline.warnings + 1) true),
        by simp⟩
  · rename_i hmodel
    rw [Bool.not_eq_true', Bool.not_eq_false] at hmodel
    split
    · rename_i hforce
      subst hforce
      generalize hmade : s.trackedJob scope false = result
      obtain ⟨job, made⟩ := result
      exact exists_course_of_force hdistinct hmodel hmade
    · rename_i hforce
      rw [Bool.not_eq_true] at hforce
      subst hforce
      split
      · refine ⟨_, .single (.enqueue s scope), ?_⟩
        split <;> simp [Operation.Brings]
      · exact ⟨[], .start, by simp⟩

/-- So does the load that a request makes. -/
theorem exists_course_of_carried (s : Service σ) (hdistinct : s.pipeline.Distinct) (scope : Scope)
    (op : Operation) :
    ∃ history, Course s history (s.carried scope).2 ∧ ∀ h ∈ history, op.Brings h := by
  have hload := (is_scheduled_plays s.setup).load
    (fun p => Plays.pass p p.clock (p.loads + 1) p.warnings) s.pipeline scope
  unfold carried
  split
  · split
    · rename_i hresult
      rw [hresult] at hload
      exact exists_course_of_plays hload hdistinct op
    · rename_i p hresult
      rw [hresult] at hload
      have hwarn : Plays s.setup p p.warn := Plays.pass p p.clock p.loads (p.warnings + 1)
      exact exists_course_of_plays (hload.trans hwarn) hdistinct op
  · exact ⟨[], .start, by simp⟩

/-- Whatever the caller does, it is a course of the service. -/
theorem exists_course_of_perform (s : Service σ) (hdistinct : s.pipeline.Distinct)
    (op : Operation) :
    ∃ history, Course s history (s.perform op) ∧ ∀ h ∈ history, op.Brings h := by
  have hscheduled := is_scheduled_plays (σ := σ) s.setup
  cases op with
  | append key e => exact ⟨_, .single (.append s key e), by simp [Operation.Brings]⟩
  | remove key => exact ⟨_, .single (.remove s key), by simp [Operation.Brings]⟩
  | enqueue scope =>
      refine ⟨_, .single (.enqueue s scope), ?_⟩
      split <;> simp [Operation.Brings]
  | summarize scope force => exact s.exists_course_of_summarize hdistinct scope force
  | request scope system => exact s.exists_course_of_carried hdistinct scope _
  | summaryText scope =>
      have hload :=
        hscheduled.load (fun p => Plays.pass p p.clock (p.loads + 1) p.warnings) s.pipeline scope
      exact exists_course_of_plays hload hdistinct _
  | sleep ms => exact exists_course_of_plays (hscheduled.sleep s.pipeline ms) hdistinct _
  | shutdown =>
      refine exists_course_of_plays (hscheduled.shutdown ?_ ?_) hdistinct _
      · intro p' hclosing hwait hdrained
        refine .of_parting hclosing hwait (fun hstill =>
          .of_step (.dismiss hstill hdrained) trivial) ?_
        rintro t rfl hstill
        exact .dismiss hstill hdrained
      · intro p' hclosing hwait
        refine .of_parting hclosing hwait (fun hstill => .of_step (.expire hstill) trivial) ?_
        rintro t rfl hstill
        exact .abort hstill

/-- Whatever a caller does with a service that was just built, one thing after another, it is a
course of the service, and all that happens is brought about by what the caller does. -/
theorem exists_course {parts : ServiceParts σ} {first : Service σ}
    (hbuild : parts.build = .ok first) (ops : List Operation) :
    ∃ history, Course first history (first.performAll ops) ∧
      ∀ h ∈ history, ∃ op ∈ ops, op.Brings h := by
  induction ops using List.reverseRecOn with
  | nil => exact ⟨[], .start, by simp⟩
  | append_singleton ops op ih =>
      obtain ⟨history, hcourse, hbrings⟩ := ih
      obtain ⟨l, hsteps, -⟩ := exists_ledger_of_build hbuild ops
      obtain ⟨since, hcourse', hbrings'⟩ := (first.performAll ops).exists_course_of_perform
        (hsteps.distinct (Pipeline.distinct_fresh _ _)) op
      rw [perform_all_append]
      refine ⟨history ++ since, hcourse.trans hcourse', fun h hh => ?_⟩
      rcases List.mem_append.1 hh with hearlier | hlast
      · obtain ⟨earlier, hmem, hbrought⟩ := hbrings h hearlier
        exact ⟨earlier, List.mem_append_left _ hmem, hbrought⟩
      · exact ⟨op, by simp, hbrings' h hlast⟩

end Service

end Transcript
