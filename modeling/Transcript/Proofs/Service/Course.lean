import Transcript.Proofs.Service.Bookkeeping
import Transcript.Proofs.Service.Requests

/-!
# The course of a service

A `Service.Course` is a run of a service under any schedule. Each step is one turn, of the caller or
of a job, and the turns come in any order: workers take jobs whenever they like, the calls of the
jobs take any time and end in any way, and the pool may be closed and left by its workers at any
moment. With the course goes a history of what has happened in it, the earliest first.

What a step can do to the events, the summaries and the prompts is one of few things
(`Service.Step.effect`), and what it does to the jobs goes into the ledger
(`Service.Course.exists_ledger`).
-/

namespace Transcript

namespace Service

variable {σ : Type} [SummaryStore σ]

/-- One step of a service, with what there is to tell of it. The caller has an event taken in, a
session removed, or a job put into the queue, or forces a summary and so begins to run a job himself
(`force`). A job has its turn (`turn`). Time goes by, summaries are loaded and warnings given
(`pass`). The pool is closed, and after that its workers are let go or stopped in the midst of their
jobs. -/
inductive Step : Service σ → List Happening → Service σ → Prop where
  | append (s : Service σ) (key : SessionKey) (e : Event) :
      Step s [.appended key e] (s.append key e).2
  | remove (s : Service σ) (key : SessionKey) : Step s [.removed key] (s.remove key).2
  | enqueue (s : Service σ) (scope : Scope) :
      Step s (if (s.enqueue scope).1.madeJob then [.requested scope] else []) (s.enqueue scope).2
  | force {s made : Service σ} {scope : Scope} {job : Job} (hmodel : s.hasModel = true)
      (hmade : s.trackedJob scope false = (job, made)) :
      Step s
        (.forced job :: made.pipeline.report s.setup job (made.pipeline.begin s.setup job false))
        (made.onPipeline (·.begin s.setup job false))
  | turn {s : Service σ} {job : Job} {p : Pipeline σ} (hturn : s.pipeline.JobTurn s.setup job p) :
      Step s (s.pipeline.report s.setup job p) { s with pipeline := p }
  | pass (s : Service σ) (clock loads warnings : Nat) (warned : Bool) :
      Step s [] { s with warned, pipeline := { s.pipeline with clock, loads, warnings } }
  | close (s : Service σ) : Step s [] (s.onPipeline Pipeline.close)
  | dismiss {s : Service σ} (hclosing : s.pipeline.isClosing = true)
      (hdrained : s.pipeline.isDrained = true) : Step s [] (s.onPipeline Pipeline.dismiss)
  | abort {s : Service σ} (hclosing : s.pipeline.isClosing = true) :
      Step s [] (s.onPipeline Pipeline.abort)

/-- Some steps of a service, one after the other, with the history of what has happened in them. -/
inductive Course (first : Service σ) : List Happening → Service σ → Prop where
  | start : Course first [] first
  | next {history news : List Happening} {s s' : Service σ} (hcourse : Course first history s)
      (hstep : Step s news s') : Course first (history ++ news) s'

namespace Course

variable {first s s' : Service σ} {history since : List Happening}

/-- A step is a course. -/
theorem single (h : Step first history s) : Course first history s := .next .start h

/-- Two courses make one, and the histories are joined. -/
theorem trans (h : Course first history s) (h' : Course s since s') :
    Course first (history ++ since) s' := by
  induction h' with
  | start => rwa [List.append_nil]
  | next hcourse hstep ih =>
      rw [← List.append_assoc]
      exact .next ih hstep

end Course

/-! ## What steps do -/

/-- What a step can do to the events, the summaries and the prompts, with what there is to tell of
it. An event comes in or a session is removed, or a job has done something (`outturn`). Other steps
are quiet, though a job may end in them before it has made a call. -/
inductive Effect (s : Service σ) : List Happening → Service σ → Prop where
  | appended {s' : Service σ} (key : SessionKey) (e : Event)
      (hquiet : Pipeline.Quiet (s.logged key e).pipeline s'.pipeline) :
      Effect s [.appended key e] s'
  | removed {s' : Service σ} (key : SessionKey)
      (hlog : s'.pipeline.log = s.pipeline.log.remove key)
      (hstore : s'.pipeline.store = s.pipeline.store) (hruns : s'.pipeline.runs = s.pipeline.runs) :
      Effect s [.removed key] s'
  | quiet {news : List Happening} {s' : Service σ} (hquiet : Pipeline.Quiet s.pipeline s'.pipeline)
      (hprompts : ∀ h ∈ news, h.prompt? = none)
      (hsummaries : ∀ h ∈ news, ∀ scope, h.summary? scope = none) :
      Effect s news s'
  | outturn {job : Job} {news : List Happening} {s' : Service σ}
      (houtturn : s.pipeline.Outturn s.setup job news s'.pipeline) : Effect s news s'

namespace Step

variable {s s' : Service σ} {news : List Happening}

/-- A step leaves the settings alone. -/
theorem settings (h : Step s news s') : SameSettings s s' := by
  cases h with
  | append key e =>
      obtain ⟨hsetup, hconfig, hchecker, hcost⟩ := (s.append_spec key e).1.settings
      exact ⟨hsetup, hconfig, hchecker, hcost⟩
  | enqueue scope => exact (s.enqueue_spec scope).1.settings
  | force hmodel hmade =>
      cases hmade
      exact ⟨rfl, rfl, rfl, rfl⟩
  | _ => exact ⟨rfl, rfl, rfl, rfl⟩

/-- The prompts and outcomes on record are those that there are to tell. -/
theorem records (h : Step s news s') :
    s'.pipeline.prompts = s.pipeline.prompts ++ news.filterMap Happening.prompt? ∧
      s'.pipeline.outcomes = s.pipeline.outcomes ++ news.filterMap Happening.outcome? := by
  cases h with
  | append key e =>
      obtain ⟨-, hquiet, houtcomes⟩ := (s.append_spec key e).1
      exact ⟨hquiet.prompts.trans (List.append_nil _).symm,
        houtcomes.trans (List.append_nil _).symm⟩
  | enqueue scope =>
      obtain ⟨-, hquiet, houtcomes⟩ := (s.enqueue_spec scope).1
      rw [hquiet.prompts, houtcomes]
      split <;> simp [Happening.prompt?, Happening.outcome?]
  | @force made scope job hmodel hmade =>
      obtain ⟨-, hquiet, houtcomes⟩ := (calm_tracked_job hmade).1
      have hbegin : made.pipeline.Outturn s.setup job _ (made.pipeline.begin s.setup job false) :=
        Pipeline.outturn_begin (.refl _) rfl rfl rfl false
      rw [← hquiet.prompts, ← houtcomes]
      exact ⟨hbegin.prompts_eq, hbegin.outcomes_eq⟩
  | turn hturn => exact ⟨hturn.outturn.prompts_eq, hturn.outturn.outcomes_eq⟩
  | _ => exact ⟨(List.append_nil _).symm, (List.append_nil _).symm⟩

/-- What steps do to the events, the summaries and the prompts. -/
theorem effect (h : Step s news s') : Effect s news s' := by
  cases h with
  | append key e => exact .appended key e (s.append_spec key e).1.quiet
  | remove key => exact .removed key rfl rfl rfl
  | enqueue scope =>
      refine .quiet (s.enqueue_spec scope).1.quiet ?_ ?_ <;> split <;>
        simp [Happening.prompt?, Happening.summary?]
  | @force made scope job hmodel hmade =>
      obtain ⟨-, hquiet, -⟩ := (calm_tracked_job hmade).1
      have hbegin := hquiet.trans (Pipeline.quiet_begin s.setup made.pipeline job false)
      rcases made.pipeline.report_begin s.setup job false with hnews | ⟨outcome, hnone, hnews⟩
      · rw [hnews]
        exact .quiet hbegin (by simp [Happening.prompt?]) (by simp [Happening.summary?])
      · rw [hnews]
        exact .quiet hbegin (by simp [Happening.prompt?]) (by simp [Happening.summary?, hnone])
  | turn hturn => exact .outturn hturn.outturn
  | pass => exact .quiet (.of_same_runs rfl rfl rfl rfl) (by simp) (by simp)
  | close => exact .quiet (Pipeline.quiet_on_pool _ _) (by simp) (by simp)
  | dismiss => exact .quiet (Pipeline.quiet_on_pool _ _) (by simp) (by simp)
  | abort => exact .quiet (Pipeline.quiet_abort _) (by simp) (by simp)

end Step

namespace Course

variable {first s : Service σ} {history : List Happening}

/-- A course leaves the settings alone. -/
theorem settings (h : Course first history s) : SameSettings first s := by
  induction h with
  | start => exact .refl first
  | next _ hstep ih => exact ih.trans hstep.settings

/-- The history has the prompts and the outcomes in the order in which they were put on record. -/
theorem records (h : Course first history s) :
    s.pipeline.prompts = first.pipeline.prompts ++ history.filterMap Happening.prompt? ∧
      s.pipeline.outcomes = first.pipeline.outcomes ++ history.filterMap Happening.outcome? := by
  induction h with
  | start => simp
  | next _ hstep ih =>
      obtain ⟨hprompts, houtcomes⟩ := hstep.records
      rw [hprompts, houtcomes, ih.1, ih.2]
      simp

end Course

end Service

/-! ## The ledger of a course -/

/-- The entries that go with a history. -/
def Entry.IsTold (history : List Happening) : Entry → Prop
  | .removed key => .removed key ∈ history
  | .offered job _ => job.tracked = true
  | .forced job => job.tracked = true ∧ .forced job ∈ history
  | .other | .started _ | .abandoned _ | .ended _ _ _ | .closed | .dismissed | .expired _ _ => True

/-- What a history tells is told by a longer one. -/
theorem Entry.IsTold.mono {history more : List Happening} (hsub : history ⊆ more) {e : Entry}
    (h : e.IsTold history) : e.IsTold more := by
  cases e with
  | removed key => exact hsub h
  | offered job answer => exact h
  | forced job => exact ⟨h.1, hsub h.2⟩
  | _ => trivial

/-- What an operation may bring about goes with any history, if it neither removes a session nor
forces a summary. -/
theorem Operation.is_told_of_allows {op : Operation} (hremove : ∀ key, op ≠ .remove key)
    (hforce : ∀ scope, op ≠ .summarize scope true) {e : Entry} (he : op.Allows e)
    (history : List Happening) : e.IsTold history := by
  cases e with
  | removed key => exact absurd he (hremove key)
  | offered job answer => exact he
  | forced job =>
      obtain ⟨-, scope, hop⟩ := he
      exact absurd hop (hforce scope)
  | _ => trivial

/-- What happens while the caller waits goes with any history. -/
theorem Entry.is_told_of_inner (history : List Happening) (e : Entry) (he : e.isInner = true) :
    e.IsTold history := by
  cases e with
  | other | started | abandoned | ended => trivial
  | _ => cases he

namespace Pipeline

variable {σ : Type} {setup : Setup} {exclusive : Bool}

/-- Entries that are allowed may be allowed by a weaker condition. -/
theorem Posts.mono {allowed more : Entry → Prop} {p p' : Pipeline σ}
    (h : Posts setup exclusive allowed p p') (hmore : ∀ e, allowed e → more e) :
    Posts setup exclusive more p p' := by
  intro hdistinct
  obtain ⟨l, hsteps, hallowed⟩ := h hdistinct
  exact ⟨l, hsteps, fun e he => hmore e (hallowed e he)⟩

variable [SummaryStore σ]

/-- A turn of a job has its entries in the ledger. -/
theorem JobTurn.posts {p p' : Pipeline σ} {job : Job} (h : JobTurn setup p job p')
    (history : List Happening) : Posts setup exclusive (Entry.IsTold history) p p' := by
  have hinner := Entry.is_told_of_inner history
  cases h with
  | take hnext => exact posts_take hinner hnext
  | loaded hrun hstage ending => exact posts_loaded hinner hrun ending
  | answered hrun hstage ending => exact posts_answered hinner hrun _ ending
  | stored hrun hstage ending => exact posts_stored hinner hrun _ ending

end Pipeline

namespace Service

variable {σ : Type} [SummaryStore σ] {first s s' : Service σ} {history news : List Happening}

/-- A step has its entries in the ledger. -/
theorem Step.posts (h : Step s news s') :
    Pipeline.Posts s.setup s.config.summary.config.singleFlight (Entry.IsTold news) s.pipeline
      s'.pipeline := by
  have hinner := Entry.is_told_of_inner news
  cases h with
  | append key e =>
      have hserved := served_append (is_served_posts s.setup _ (.append key e)) key e
      exact hserved.pipeline.mono fun entry he =>
        Operation.is_told_of_allows (by simp) (by simp) he _
  | remove key => exact .of_step (.remove s.pipeline key) (List.mem_singleton_self _)
  | enqueue scope =>
      have hserved := served_enqueue (is_served_posts s.setup _ (.enqueue scope)) scope
      exact hserved.pipeline.mono fun entry he =>
        Operation.is_told_of_allows (by simp) (by simp) he _
  | @force made scope job hmodel hmade =>
      have hjob : s.pipeline.makeJob s.setup scope true false = (job, made.pipeline) := by
        cases hmade
        rfl
      refine Pipeline.posts_begin hinner fun run hrun hcaller => ?_
      subst hrun
      exact .of_step (.force hjob hcaller) ⟨(Pipeline.make_job_inv hjob).1.2.2, List.mem_cons_self⟩
  | turn hturn => exact hturn.posts _
  | pass => exact Pipeline.posts_same hinner ⟨rfl, rfl, rfl, fun _ => rfl⟩
  | close => exact .of_step (.close s.pipeline) trivial
  | dismiss hclosing hdrained => exact .of_step (.dismiss hclosing hdrained) trivial
  | abort hclosing => exact .of_step (.expire hclosing) trivial

/-- In its course the pipeline of a service goes through steps, and the entries of their ledger go
with the history. -/
theorem Course.exists_ledger (h : Course first history s) (hdistinct : first.pipeline.Distinct) :
    ∃ l : Ledger,
      Pipeline.Steps first.setup first.config.summary.config.singleFlight first.pipeline l
        s.pipeline ∧ ∀ e ∈ l, e.IsTold history := by
  induction h with
  | start => exact ⟨[], .start, by simp⟩
  | next hcourse hstep ih =>
      obtain ⟨l, hsteps, hl⟩ := ih
      obtain ⟨hsetup, hconfig, -, -⟩ := hcourse.settings
      have hposts := hstep.posts
      rw [hsetup, hconfig] at hposts
      obtain ⟨m, hsteps', hm⟩ := hposts (hsteps.distinct hdistinct)
      refine ⟨l ++ m, hsteps.trans hsteps', fun e he => ?_⟩
      rcases List.mem_append.1 he with hearlier | hlast
      · exact (hl e hearlier).mono (List.subset_append_left _ _)
      · exact (hm e hlast).mono (List.subset_append_right _ _)

end Service

end Transcript
