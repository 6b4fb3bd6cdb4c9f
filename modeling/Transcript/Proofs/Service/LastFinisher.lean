import Transcript.Proofs.Service.Representation
import Transcript.Proofs.Service.Scheduling

/-!
# The last finisher wins

Jobs of a scope may run at the same time, and each writes its summary over what is there. So what is
stored for a scope is the summary of the job that finished last, whichever began first
(`Service.content_eq_last_finished`). Jobs that go wrong, run out of time or find nothing to do
leave what was stored.
-/

namespace Transcript

/-- The summaries of the jobs of a scope that have succeeded with one, in the order in which the
jobs have finished. -/
def finishedSummaries (scope : Scope) (history : List Happening) : List Summary :=
  history.filterMap (·.summary? scope)

variable {σ : Type} [SummaryStore σ] [AtomicStore σ]

/-- Only a job that succeeds changes what is stored, and it does so for its scope. -/
theorem Pipeline.Outturn.content_eq {setup : Setup} {p p' : Pipeline σ} {job : Job}
    {news : List Happening} (h : p.Outturn setup job news p') (scope : Scope) :
    LawfulStore.content p'.store scope =
      (finishedSummaries scope news).getLast?.or (LawfulStore.content p.store scope) := by
  unfold finishedSummaries
  cases h with
  | idle hquiet => exact congrArg (LawfulStore.content · scope) hquiet.store
  | ended hquiet _ _ hnone =>
      rw [hquiet.store]
      simp [Happening.summary?, hnone]
  | asked _ hjob _ _ hnews =>
      subst hjob
      obtain ⟨last, ending, due, -, hask⟩ := Pipeline.ask_of_news setup hnews
      rw [hask]
      rfl
  | kept => rfl
  | @written _ summary _ _ _ _ _ hstore =>
      rw [Pipeline.finish_eq]
      by_cases hscope : job.scope = scope
      · subst hscope
        simpa [Happening.summary?, Outcome.summary?] using AtomicStore.content_store_ok hstore
      · have hother := LawfulStore.content_store_of_ne p.store summary (Ne.symm hscope)
        rw [hstore] at hother
        simpa [Happening.summary?, hscope] using hother
  | refused _ _ _ hstore =>
      rw [Pipeline.finish_eq]
      simpa [Happening.summary?, Outcome.summary?] using
        AtomicStore.content_eq_of_error hstore scope

namespace Service

variable {first s s' : Service σ} {history news : List Happening}

/-- A step puts the summary in place that a job has finished with in it, if there is one. -/
theorem Step.content_eq (h : Step s news s') (scope : Scope) :
    LawfulStore.content s'.pipeline.store scope =
      (finishedSummaries scope news).getLast?.or (LawfulStore.content s.pipeline.store scope) := by
  cases h.effect with
  | appended key e hquiet => exact congrArg (LawfulStore.content · scope) hquiet.store
  | removed key _ hstore _ => exact congrArg (LawfulStore.content · scope) hstore
  | quiet hquiet _ hsummaries =>
      have hnone : finishedSummaries scope news = [] :=
        List.filterMap_eq_nil_iff.2 fun h hh => hsummaries h hh scope
      rw [hquiet.store, hnone]
      rfl
  | outturn houtturn => exact houtturn.content_eq scope

/-- At any time, and in whatever order jobs have been made, begun and finished, the summary that is
stored for a scope is that of the last job of the scope that has succeeded with one. As long as
there is no such job it is what was stored at first, if anything was. -/
theorem content_eq_last_finished (h : Course first history s) (scope : Scope) :
    LawfulStore.content s.pipeline.store scope =
      (finishedSummaries scope history).getLast?.or
        (LawfulStore.content first.pipeline.store scope) := by
  induction h with
  | start => rfl
  | next _ hstep ih =>
      rw [hstep.content_eq, ih, ← Option.or_assoc, ← List.getLast?_append]
      unfold finishedSummaries
      rw [List.filterMap_append]

end Service

/-! ## A job that is overtaken -/

/-- A model that answers ever faster. -/
def Summarizer.hurrying : Summarizer where
  reply number _ := { delay := 3000 / number, ending := .value { text := toString number } }

/-- Parts of a service with a model that answers ever faster. -/
def ServiceParts.hurrying : ServiceParts MemoryStore :=
  { ServiceParts.terse with summarizer := some .hurrying }

/-- A service with a model that answers ever faster. -/
def Service.hurrying : Service MemoryStore :=
  { Service.terse with setup.summarizer := .hurrying }

/-- It is what is built from these parts. -/
theorem Service.build_hurrying : ServiceParts.hurrying.build = .ok Service.hurrying :=
  ServiceParts.build_eq_ok_iff.2
    ⟨by decide +kernel, { template := conversationPlace }, by decide +kernel, rfl, rfl⟩

/-- A job in the background is overtaken by one that the caller forces, which covers more. It
finishes last, and its summary stays. -/
theorem Service.content_eq_last_finished_overtaken :
    let scope := Scope.whole .desk
    let s := hurrying.performAll [.append .desk (.saying "x"), .enqueue scope, .sleep 50,
      .append .desk (.saying "y"), .summarize scope true, .sleep 3000]
    ∃ history, Course hurrying history s ∧ s.pipeline.outcomes.map Prod.fst = [2, 1] ∧
      (finishedSummaries scope history).getLast?.map Summary.text = some "1" ∧
      LawfulStore.content s.pipeline.store scope = (finishedSummaries scope history).getLast? ∧
      (LawfulStore.content s.pipeline.store scope).map Summary.coveredUntil = some 1 := by
  intro scope s
  obtain ⟨history, hcourse, -⟩ := exists_course build_hurrying [.append .desk (.saying "x"),
    .enqueue scope, .sleep 50, .append .desk (.saying "y"), .summarize scope true, .sleep 3000]
  have hcontent := content_eq_last_finished hcourse scope
  have hempty : LawfulStore.content hurrying.pipeline.store scope = none := rfl
  rw [hempty, Option.or_none] at hcontent
  refine ⟨history, hcourse, ?_, ?_, hcontent, ?_⟩
  · decide +kernel
  · rw [← hcontent]
    decide +kernel
  · decide +kernel

end Transcript
