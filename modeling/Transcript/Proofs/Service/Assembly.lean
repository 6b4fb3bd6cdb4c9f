import Mathlib.Data.List.DropRight
import Transcript.Proofs.Service.Disabled
import Transcript.Proofs.Service.Independence
import Transcript.Proofs.Tailoring.Selection

/-!
# What requests are made of

A request looks for the events behind the boundary of the summary that it carries, and leaves out
once more what the summary covers. The numbers of events are in order, so the second time nothing is
left to be left out, and the request is what one would make of the whole scope
(`Service.request_eq_reference`).
-/

namespace Transcript

/-- A system message at the beginning stays there, whatever the budget is. -/
theorem Tailor.head_tailor (t : Tailor) (text : String) (messages : List Message) (budget : Nat) :
    (t.tailor (.system text :: messages) budget).head? = some (.system text) := by
  rw [tailor_eq_drop_while, Segments.front_eq_take_while, List.takeWhile_cons_of_pos rfl]
  rfl

/-! ## Numbers in order -/

namespace SessionLog

variable {log : SessionLog}

/-- Numbers begin with 1, so without a boundary nothing is left out. -/
theorem IsNumbered.events_after_none (h : log.IsNumbered) (scope : Scope) :
    log.eventsAfter scope.session scope.filter none = log.inScope scope := by
  rw [h.events_after_eq]
  exact List.filter_eq_self.2 fun _ he => decide_eq_true (h.id_lt_next he).1

/-- A change of the events keeps them numbered. -/
theorem IsNumbered.on_log (h : log.IsNumbered) (happening : Happening) :
    (happening.onLog log).IsNumbered := by
  cases happening with
  | appended key e => exact h.append key e
  | removed key => exact h.remove key
  | _ => exact h

end SessionLog

/-- If the events that a summary covers are left out beforehand, the request is the same. -/
theorem GrowthControl.assemble_events_after {log : SessionLog} (h : log.IsNumbered) (scope : Scope)
    (system : Option String) (summary : Summary) :
    (GrowthControl.summary true).assemble system (some summary)
        (log.eventsAfter scope.session scope.filter (some summary.coveredUntil)) =
      (GrowthControl.summary true).assemble system (some summary) (log.inScope scope) := by
  refine (assemble_carried h scope system (some summary)).trans ?_
  rw [h.events_after_eq, List.append_assoc]
  rfl

/-! ## Loads -/

namespace Pipeline

variable {σ : Type} [SummaryStore σ] (setup : Setup)

/-- Jobs leave the events alone, whenever they have their turns. -/
theorem is_scheduled_log : IsScheduled setup fun p p' : Pipeline σ => p'.log = p.log where
  refl _ := rfl
  trans h h' := h'.trans h
  turn _ _ := rfl
  resume hrun := (JobTurn.resume hrun).outturn.log_eq
  take hnext := (JobTurn.take hnext).outturn.log_eq

/-- So the events are the same when a summary has been loaded, however long that took. -/
theorem load_log_eq (p : Pipeline σ) (scope : Scope) : (p.load setup scope).2.log = p.log :=
  (is_scheduled_log setup).load (fun _ => rfl) p scope

/-- The result of a load is what the store has by then, if the call gets through to it. -/
theorem load_fst (p : Pipeline σ) (scope : Scope) :
    (p.load setup scope).1 =
      match (setup.link.load (p.loads + 1)).ending with
      | .value () => SummaryStore.load (p.load setup scope).2.store scope
      | .error reason => .error (.store reason)
      | .panic message => .error (.store (panicText message)) := by
  unfold load
  dsimp only
  cases (setup.link.load (p.loads + 1)).ending <;> rfl

end Pipeline

/-- Whether requests are kept short with summaries: they are on, and there is a model. -/
def ServiceParts.sumsUp {σ : Type} (parts : ServiceParts σ) : Bool :=
  parts.config.summary.enabled && parts.summarizer.isSome

namespace Service

variable {σ : Type} [SummaryStore σ]

/-- The events of a service are numbered at all times. -/
theorem Course.is_numbered {parts : ServiceParts σ} {first s : Service σ} {history : List Happening}
    (hbuild : parts.build = .ok first) (hcourse : Course first history s) :
    s.pipeline.log.IsNumbered := by
  obtain ⟨hfresh, -, -⟩ := ServiceParts.build_pipeline hbuild
  rw [hcourse.log_eq, hfresh]
  exact List.foldlRecOn _ Happening.onLog SessionLog.is_numbered_empty
    fun _ hlog happening _ => hlog.on_log happening

/-- What the store answers when the summary of a scope is loaded for a request. -/
def answer (s : Service σ) (scope : Scope) : Ending (Option Summary) :=
  match (s.setup.link.load (s.pipeline.loads + 1)).ending with
  | .value () =>
    match SummaryStore.load (s.pipeline.load s.setup scope).2.store scope with
    | .ok found => .value found
    | .error f => .error f.message
  | .error reason => .error reason
  | .panic message => .panic message

/-- The summary that an answer brings. A refusal brings none. -/
def brought : Ending (Option Summary) → Option Summary
  | .value found => found
  | .error _ | .panic _ => none

/-- A request has what the store answers, if it is to carry the summary at all. -/
theorem carried_fst (s : Service σ) (scope : Scope) :
    (s.carried scope).1 = if s.control.carriesSummary then brought (s.answer scope) else none := by
  have hresult := Pipeline.load_fst s.setup s.pipeline scope
  unfold carried answer
  split
  · generalize s.pipeline.load s.setup scope = result at *
    obtain ⟨loaded, p⟩ := result
    dsimp only at hresult ⊢
    subst hresult
    cases (s.setup.link.load (s.pipeline.loads + 1)).ending with
    | value => cases hload : SummaryStore.load p.store scope <;> rfl
    | error reason => rfl
    | panic message => rfl
  · rfl

/-- Whatever comes of the load, the request is kept short as before, and made of the same events. -/
theorem carried_snd (s : Service σ) (scope : Scope) :
    (s.carried scope).2.control = s.control ∧
      (s.carried scope).2.pipeline.log = s.pipeline.log := by
  have hlog := Pipeline.load_log_eq s.setup s.pipeline scope
  unfold carried
  split
  · generalize s.pipeline.load s.setup scope = result at *
    obtain ⟨loaded, p⟩ := result
    cases loaded <;> exact ⟨rfl, hlog⟩
  · exact ⟨rfl, rfl⟩

/-- A request is made of the summary that it carries and of the events behind the boundary of
that. -/
theorem request_fst (s : Service σ) (scope : Scope) (system : Option String) :
    (s.request scope system).1 = s.control.assemble system (s.carried scope).1
      (s.pipeline.log.eventsAfter scope.session scope.filter
        ((s.carried scope).1.map Summary.coveredUntil)) := by
  obtain ⟨hcontrol, hlog⟩ := s.carried_snd scope
  unfold request
  rw [← hlog, ← hcontrol]

/-! ## Requests -/

section Requests

variable {s : Service σ} (hlog : s.pipeline.log.IsNumbered) (scope : Scope) (system : Option String)
include hlog

/-- A summary that is carried takes the place of the events that it covers. -/
theorem request_of_summary (hcontrol : s.control = .summary true) {summary : Summary}
    (hanswer : s.answer scope = .value (some summary)) :
    (s.request scope system).1 =
      s.control.assemble system (some summary) (s.pipeline.log.inScope scope) := by
  have hfound : (s.carried scope).1 = some summary := by
    rw [carried_fst, hcontrol, hanswer]
    rfl
  rw [request_fst, hfound, hcontrol]
  exact GrowthControl.assemble_events_after hlog scope system summary

/-- If none is carried, all events of the scope are repeated. -/
theorem request_of_no_summary {carried : Bool} (hcontrol : s.control = .summary carried)
    (hanswer : carried = true → brought (s.answer scope) = none) :
    (s.request scope system).1 =
      (system.map Message.system).toList ++ (s.pipeline.log.inScope scope).map Event.message := by
  have hfound : (s.carried scope).1 = none := by
    rw [carried_fst, hcontrol]
    cases carried with
    | false => rfl
    | true => exact hanswer rfl
  rw [request_fst, hfound, hcontrol]
  refine (GrowthControl.assemble_carried hlog scope system none).trans ?_
  rw [Option.map_none, Option.map_none, hlog.events_after_none, Option.toList_none, List.append_nil]

/-- Without summaries the last events of the scope are tailored. -/
theorem request_of_tailoring {config : TailoringConfig} {cost : TokenCounter}
    (hcontrol : s.control = .ofTailoring config cost) :
    (s.request scope system).1 =
      ({ strategy := config.strategy, cost } : Tailor).tailor
        ((system.map Message.system).toList ++
          (if config.maxHistory = 0 then s.pipeline.log.inScope scope
            else (s.pipeline.log.inScope scope).rtake config.maxHistory).map Event.message)
        config.maxTokens := by
  have hfound : (s.carried scope).1 = none := by
    rw [carried_fst, hcontrol]
    rfl
  rw [request_fst, hfound, hcontrol, Option.map_none, hlog.events_after_none]
  rfl

end Requests

/-- A service that sums up and carries summaries puts the one that the store has in the place of the
events that it covers, which is what it would make of the whole scope, also if the events have
changed by the time that the summary has been loaded. If the store has none or refuses to answer, or
if no summary is to be carried, all events of the scope are repeated. A service that does not sum up
tailors the last events of the scope to its budget, and the system prompt stays in front. -/
theorem request_eq_reference {parts : ServiceParts σ} {first s : Service σ}
    {history : List Happening} (hbuild : parts.build = .ok first) (hcourse : Course first history s)
    (scope : Scope) (system : Option String) :
    let opening := (system.map Message.system).toList
    let events := s.pipeline.log.inScope scope
    let messages := (s.request scope system).1
    let carrying := parts.config.summary.config.addToPrompt
    let tailoring := parts.config.tailoring
    (parts.sumsUp = true →
      (carrying = true → ∀ summary, s.answer scope = .value (some summary) →
        messages = opening ++ summaryMessage summary.text ::
          (events.filter (summary.coveredUntil < ·.id)).map Event.message ∧
        messages = s.control.assemble system (some summary) events ∧
        ∀ since later, Course s since later →
          later.control.assemble system (some summary)
              (later.pipeline.log.eventsAfter scope.session scope.filter
                (some summary.coveredUntil)) =
            later.control.assemble system (some summary) (later.pipeline.log.inScope scope)) ∧
      ((carrying = true → s.answer scope = .value none ∨ ∃ reason, s.answer scope = .error reason) →
        messages = opening ++ events.map Event.message)) ∧
    (parts.sumsUp = false →
      messages = ({ strategy := tailoring.strategy, cost := parts.cost } : Tailor).tailor
        (opening ++ (if tailoring.maxHistory = 0 then events
          else events.rtake tailoring.maxHistory).map Event.message) tailoring.maxTokens ∧
      ∀ text, system = some text → messages.head? = some (.system text)) := by
  intro opening events messages carrying tailoring
  obtain ⟨-, hbuilt, -⟩ := ServiceParts.build_pipeline hbuild
  have hcontrol : s.control = parts.control := hcourse.control_eq.trans hbuilt
  have hlog := hcourse.is_numbered hbuild
  refine ⟨fun hsums => ?_, fun hplain => ?_⟩
  · have hsummary : s.control = .summary carrying := hcontrol.trans (if_pos hsums)
    refine ⟨fun hcarrying summary hanswer => ?_, fun hnone => ?_⟩
    · rw [hcarrying] at hsummary
      have hwhole := request_of_summary hlog scope system hsummary hanswer
      refine ⟨hwhole.trans ?_, hwhole, fun since later hlater => ?_⟩
      · rw [hsummary]
        rfl
      · rw [hlater.control_eq, hsummary]
        exact GrowthControl.assemble_events_after ((hcourse.trans hlater).is_numbered hbuild)
          scope system summary
    · refine request_of_no_summary hlog scope system hsummary fun hcarrying => ?_
      rcases hnone hcarrying with hanswer | ⟨reason, hanswer⟩
      · rw [hanswer]
        rfl
      · rw [hanswer]
        rfl
  · have htailored : messages = _ := request_of_tailoring hlog scope system
      (hcontrol.trans (if_neg (Bool.eq_false_iff.1 hplain)))
    refine ⟨htailored, fun text htext => ?_⟩
    rw [htailored, htext]
    exact Tailor.head_tailor _ _ _ _

end Service

/-- Parts with a store that refuses the second call to load a summary. -/
def ServiceParts.unsteady : ServiceParts MemoryStore :=
  { ServiceParts.terse with
    link :=
      { load := fun number => { ending := if number = 2 then .error "down" else .value () } } }

/-- A service with a store that refuses the second call to load a summary. -/
def Service.unsteady : Service MemoryStore :=
  { Service.terse with setup.link := ServiceParts.unsteady.link }

namespace Service

/-- It is what is built from these parts. -/
theorem build_unsteady : ServiceParts.unsteady.build = .ok unsteady :=
  ServiceParts.build_eq_ok_iff.2
    ⟨by decide +kernel, { template := conversationPlace }, by decide +kernel, rfl, rfl⟩

/-- The first event is folded into a summary. The store refuses to give it out for the first
request, so that this repeats both events, but not for the next one. Without summaries the events
are only tailored. -/
theorem request_eq_reference_second_load_refused :
    let scope := Scope.whole .desk
    let ops : List Operation :=
      [.append .desk (.saying "x"), .summarize scope true, .append .desk (.saying "y")]
    let s := unsteady.performAll ops
    let later := unsteady.performAll (ops ++ [.request scope none])
    (s.request scope (some "P")).1 = [.system "P", .user "x", .user "y"] ∧
      (later.request scope (some "P")).1 = [.system "P", summaryMessage "S", .user "y"] ∧
      ((silent.performAll [.append .desk (.saying "x")]).request scope (some "P")).1.head? =
        some (.system "P") := by
  intro scope ops s later
  obtain ⟨_, hcourse, -⟩ := exists_course build_unsteady ops
  obtain ⟨_, hlater, -⟩ := exists_course build_unsteady (ops ++ [.request scope none])
  obtain ⟨_, hsilent, -⟩ := exists_course build_silent [.append .desk (.saying "x")]
  obtain ⟨hsums, -⟩ := request_eq_reference build_unsteady hcourse scope (some "P")
  obtain ⟨hsums', -⟩ := request_eq_reference build_unsteady hlater scope (some "P")
  obtain ⟨-, hplain⟩ := request_eq_reference build_silent hsilent scope (some "P")
  refine ⟨((hsums rfl).2 fun _ => .inr ⟨"down", ?_⟩).trans ?_,
    ((hsums' rfl).1 rfl { text := "S", coveredUntil := 1, generatedAt := ⟨0, 0⟩ } ?_).1.trans ?_,
    (hplain rfl).2 "P" rfl⟩
  · decide +kernel
  · decide +kernel
  · decide +kernel
  · decide +kernel

end Service

end Transcript
