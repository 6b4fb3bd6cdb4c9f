import Transcript.Proofs.Service.Representation
import Transcript.Proofs.Service.Scheduling

/-!
# Requests that carry no summary

Only the caller changes the events of a service: he has events taken in and sessions removed, and
whatever else happens leaves the events alone (`Service.Course.log_eq`). A request that carries no
summary is made of the events, so it is the same whatever there is in the store and however its
calls go, and whatever the model answers and whenever (`Service.requests_agree`).
-/

namespace Transcript

namespace Pipeline

variable {σ : Type} [SummaryStore σ] {setup : Setup} {p p' : Pipeline σ} {job : Job}
  {news : List Happening}

/-- A job leaves the events alone. -/
theorem Outturn.log_eq (h : Outturn setup p job news p') : p'.log = p.log := by
  cases h with
  | idle hquiet => exact hquiet.log
  | ended hquiet => exact hquiet.log
  | asked _ hjob _ _ hnews =>
      subst hjob
      obtain ⟨last, ending, due, -, hask⟩ := ask_of_news setup hnews
      rw [hask]
      rfl
  | kept => rfl
  | written => rw [finish_eq]
  | refused => rw [finish_eq]

end Pipeline

namespace Happening

/-- Whether the events change. -/
def changesLog : Happening → Bool
  | .appended _ _ | .removed _ => true
  | _ => false

/-- The events after something has happened. -/
def onLog (log : SessionLog) : Happening → SessionLog
  | .appended key e => log.append key e
  | .removed key => log.remove key
  | _ => log

/-- What jobs do does not change the log. -/
theorem changes_log_eq_false {h : Happening} (hinner : h.isInner = true) :
    h.changesLog = false := by
  cases h with
  | asked | ended => rfl
  | _ => cases hinner

end Happening

/-- What an operation does to the events. -/
def Operation.changes : Operation → List Happening
  | .append key e => [.appended key e]
  | .remove key => [.removed key]
  | _ => []

/-- The summary is carried only if summaries are on, there is a model and the summary is to be
carried. -/
theorem ServiceParts.carries_summary_eq_false {σ : Type} {parts : ServiceParts σ}
    (h : parts.config.summary.enabled = false ∨ parts.summarizer = none ∨
      parts.config.summary.config.addToPrompt = false) : parts.control.carriesSummary = false := by
  have htailoring : (GrowthControl.ofTailoring parts.config.tailoring parts.cost).carriesSummary =
      false :=
    rfl
  unfold ServiceParts.control
  rcases h with hdisabled | hnone | hleft
  · rw [hdisabled]
    exact htailoring
  · rw [hnone, Option.isSome_none, Bool.and_false]
    exact htailoring
  · rw [hleft]
    split
    · rfl
    · exact htailoring

namespace Service

variable {σ : Type} [SummaryStore σ] {first s s' : Service σ} {history news : List Happening}

/-! ## The events of a course -/

/-- What a step does to the events is what there is to tell of it. -/
theorem Step.log_eq (h : Step s news s') :
    s'.pipeline.log = (news.filter Happening.changesLog).foldl Happening.onLog s.pipeline.log := by
  have hreport (job : Job) (p p' : Pipeline σ) :
      (p.report s.setup job p').filter Happening.changesLog = [] :=
    List.filter_eq_nil_iff.2 fun h hh => by
      simp [Happening.changes_log_eq_false (Pipeline.is_inner_report _ _ _ _ _ hh)]
  cases h with
  | append key e => exact (s.append_spec key e).1.quiet.log
  | enqueue scope =>
      rw [(s.enqueue_spec scope).1.quiet.log]
      split <;> rfl
  | @force made scope job hmodel hmade =>
      rw [List.filter_cons_of_neg (by simp [Happening.changesLog]), hreport]
      have hbegin := Pipeline.quiet_begin s.setup made.pipeline job false
      exact hbegin.log.trans (calm_tracked_job hmade).1.quiet.log
  | turn hturn =>
      rw [hreport]
      exact hturn.outturn.log_eq
  | _ => rfl

/-- Only the caller changes the events. -/
theorem Course.log_eq (h : Course first history s) :
    s.pipeline.log =
      (history.filter Happening.changesLog).foldl Happening.onLog first.pipeline.log := by
  induction h with
  | start => rfl
  | next _ hstep ih => rw [hstep.log_eq, ih, List.filter_append, List.foldl_append]

/-- Requests are kept short in one way all the time. -/
theorem Step.control_eq (h : Step s news s') : s'.control = s.control := by
  cases h with
  | append key e => exact (served_append (is_served_posts s.setup _ (.append key e)) key e).control
  | enqueue scope =>
      exact (served_enqueue (is_served_posts s.setup _ (.enqueue scope)) scope).control
  | force hmodel hmade =>
      cases hmade
      rfl
  | _ => rfl

/-- The way that requests are kept short stays the same. -/
theorem Course.control_eq (h : Course first history s) : s.control = first.control := by
  induction h with
  | start => rfl
  | next _ hstep ih => exact hstep.control_eq.trans ih

/-- In the course that an operation is, the events change as the operation has it. -/
theorem exists_course_of_operation (s : Service σ) (hdistinct : s.pipeline.Distinct)
    (op : Operation) :
    ∃ history, Course s history (s.perform op) ∧
      history.filter Happening.changesLog = op.changes := by
  obtain ⟨history, hcourse, hbrings⟩ := s.exists_course_of_perform hdistinct op
  -- No other operation brings an event in or removes a session.
  have hquiet (happend : ∀ key e, op ≠ .append key e) (hremove : ∀ key, op ≠ .remove key) :
      history.filter Happening.changesLog = [] := by
    refine List.filter_eq_nil_iff.2 fun h hh => ?_
    have hbrought := hbrings h hh
    cases h with
    | appended key e => exact absurd hbrought (happend key e)
    | removed key => exact absurd hbrought (hremove key)
    | _ => exact Bool.false_ne_true
  cases op with
  | append key e => exact ⟨_, .single (.append s key e), rfl⟩
  | remove key => exact ⟨_, .single (.remove s key), rfl⟩
  | _ => exact ⟨history, hcourse, hquiet (by simp) (by simp)⟩

/-! ## Requests -/

/-- A request that carries no summary asks nobody and changes nothing, and it is made of the events
that the caller has had taken in and not removed. -/
theorem Course.request_eq {parts : ServiceParts σ} (hbuild : parts.build = .ok first)
    (hcourse : Course first history s) (hcarry : parts.control.carriesSummary = false)
    (scope : Scope) (system : Option String) :
    s.request scope system =
      (parts.control.assemble system none
        (((history.filter Happening.changesLog).foldl Happening.onLog {}).eventsAfter scope.session
          scope.filter none), s) := by
  obtain ⟨hfirst, hcontrol, -⟩ := ServiceParts.build_pipeline hbuild
  have hlog := hcourse.log_eq
  have hsame : s.control = parts.control := hcourse.control_eq.trans hcontrol
  rw [hfirst] at hlog
  unfold request carried
  rw [hsame, hcarry]
  show (s.control.assemble _ _ (s.pipeline.log.eventsAfter _ _ _), s) = _
  rw [hsame, hlog]
  rfl

/-- Whatever the caller does with a service, the events change as he tells it. -/
theorem exists_course_changes {parts : ServiceParts σ} (hbuild : parts.build = .ok first)
    (ops : List Operation) :
    ∃ history, Course first history (first.performAll ops) ∧
      history.filter Happening.changesLog = ops.flatMap Operation.changes := by
  induction ops using List.reverseRecOn with
  | nil => exact ⟨[], .start, rfl⟩
  | append_singleton ops op ih =>
      obtain ⟨history, hcourse, hchanges⟩ := ih
      obtain ⟨l, hsteps, -⟩ := exists_ledger_of_build hbuild ops
      obtain ⟨since, hcourse', hchanges'⟩ := (first.performAll ops).exists_course_of_operation
        (hsteps.distinct (Pipeline.distinct_fresh _ _)) op
      rw [perform_all_append]
      refine ⟨history ++ since, hcourse.trans hcourse', ?_⟩
      rw [List.filter_append, hchanges, hchanges', List.flatMap_append, List.flatMap_singleton]

/-- Two services build the same requests, and neither asks its store for a summary or changes
otherwise. -/
def SameRequests {τ : Type} [SummaryStore τ] (s : Service σ) (s' : Service τ) : Prop :=
  ∀ scope system, (s.request scope system).1 = (s'.request scope system).1 ∧
    (s.request scope system).2 = s ∧ (s'.request scope system).2 = s'

/-- Where no summary is carried, courses that change the log alike lead to the same requests. -/
theorem Course.same_requests {τ : Type} [SummaryStore τ] {parts : ServiceParts σ}
    {parts' : ServiceParts τ} {first' t : Service τ} {history' : List Happening}
    (hbuild : parts.build = .ok first) (hbuild' : parts'.build = .ok first')
    (hcontrol : parts'.control = parts.control) (hcarry : parts.control.carriesSummary = false)
    (hcourse : Course first history s) (hcourse' : Course first' history' t)
    (hsame : history'.filter Happening.changesLog = history.filter Happening.changesLog) :
    SameRequests s t := by
  intro scope system
  rw [hcourse.request_eq hbuild hcarry, hcourse'.request_eq hbuild' (hcontrol ▸ hcarry),
    hcontrol, hsame]
  exact ⟨rfl, rfl, rfl⟩

/-- Two services have the same settings, and either both have a model or neither has one, but their
stores, the ways to these and what the models do may be anything. If requests do not carry the
summary, the services build the same requests at all times: in any two courses in which the callers
change the events alike, and so whenever the callers have done the same. -/
theorem requests_agree {τ : Type} [SummaryStore τ] {parts : ServiceParts σ}
    {parts' : ServiceParts τ} {first' : Service τ} (hbuild : parts.build = .ok first)
    (hbuild' : parts'.build = .ok first') (hconfig : parts'.config = parts.config)
    (hcost : parts'.cost = parts.cost) (hmodel : parts'.summarizer.isSome = parts.summarizer.isSome)
    (hcarry : parts.config.summary.enabled = false ∨ parts.summarizer = none ∨
      parts.config.summary.config.addToPrompt = false) :
    (∀ history history' s s', Course first history s → Course first' history' s' →
      history'.filter Happening.changesLog = history.filter Happening.changesLog →
      SameRequests s s') ∧
    ∀ ops, SameRequests (first.performAll ops) (first'.performAll ops) := by
  have hcarry' := ServiceParts.carries_summary_eq_false hcarry
  have hcontrol : parts'.control = parts.control := by
    unfold ServiceParts.control
    rw [hconfig, hcost, hmodel]
  refine ⟨fun history history' s s' hcourse hcourse' hsame => ?_, fun ops => ?_⟩
  · exact hcourse.same_requests hbuild hbuild' hcontrol hcarry' hcourse' hsame
  · obtain ⟨history, hcourse, hchanges⟩ := exists_course_changes hbuild ops
    obtain ⟨history', hcourse', hchanges'⟩ := exists_course_changes hbuild' ops
    exact hcourse.same_requests hbuild hbuild' hcontrol hcarry' hcourse'
      (hchanges'.trans hchanges.symm)

end Service

/-- Parts with any model, any store and any way to it, but without a place for summaries in
requests. -/
def ServiceParts.reticent (summarizer : Summarizer) (link : Link) (store : MemoryStore) :
    ServiceParts MemoryStore :=
  { ServiceParts.terse with
    config.summary.config.addToPrompt := false
    summarizer := some summarizer
    link
    store }

/-- A service that writes summaries but does not carry them in requests. -/
def Service.reticent (summarizer : Summarizer) (link : Link) (store : MemoryStore) :
    Service MemoryStore :=
  { Service.terse with
    config := (ServiceParts.reticent summarizer link store).config
    setup.summarizer := summarizer
    setup.link := link
    control := .summary false
    pipeline := { store, pool := some (Pool.ofConfig {}) } }

/-- It is what is built from these parts. -/
theorem Service.build_reticent (summarizer : Summarizer) (link : Link) (store : MemoryStore) :
    (ServiceParts.reticent summarizer link store).build =
      .ok (Service.reticent summarizer link store) := by
  -- The configuration does not depend on the model, the store and the way to it.
  have hvalid : (ServiceParts.reticent .absent {} {}).config.validate = .ok () := by decide +kernel
  have hprompt : (ServiceParts.reticent .absent {} {}).config.summary.config.prompt =
      .ok { template := conversationPlace } := by decide +kernel
  exact ServiceParts.build_eq_ok_iff.2 ⟨hvalid, _, hprompt, rfl, rfl⟩

/-- One service has a good model and an empty store. In the other the model breaks down after a
while, and the store holds a summary that can be loaded only once. Nothing of that shows in a
request. -/
theorem Service.requests_agree_broken_store :
    let good : Summarizer := { reply := fun _ _ => { ending := .value { text := "S" } } }
    let bad : Summarizer := { reply := fun _ _ => { delay := 50, ending := .panic none } }
    let broken : Link :=
      { load := fun number => { ending := if number = 1 then .value () else .error "down" } }
    let scope := Scope.whole .desk
    let filled : MemoryStore := ⟨Table.insert ∅ scope ⟨"T", 0, ⟨0, 0⟩, {}⟩⟩
    let ops : List Operation :=
      [.append .desk (.saying "x"), .summarize scope true, .append .desk (.saying "y")]
    let s := (reticent good {} {}).performAll ops
    let s' := (reticent bad broken filled).performAll ops
    s.pipeline.clock = 0 ∧ s'.pipeline.clock = 50 ∧ SameRequests s s' ∧
      (s.request scope none).1 = [.user "x", .user "y"] := by
  intro good bad broken scope filled ops s s'
  refine ⟨?_, ?_, ?_, ?_⟩
  · decide +kernel
  · decide +kernel
  · exact (requests_agree (build_reticent good {} {}) (build_reticent bad broken filled) rfl rfl rfl
      (.inr (.inr rfl))).2 ops
  · decide +kernel

end Transcript
