import Transcript.Proofs.Pipeline.Posting
import Transcript.Proofs.Service.Operations

/-!
# The ledger of a service

Whatever a caller does with a service, in whatever order, its pipeline goes through steps with a
ledger (`Service.exists_ledger`). All jobs of a service are tracked, and only some operations bring
about entries of some kinds: a session is removed only if the caller has it removed, and the pool is
closed only if the caller shuts the service down.
-/

namespace Transcript

/-- The entries that an operation may bring about. -/
def Operation.Allows (op : Operation) : Entry → Prop
  | .removed key => op = .remove key
  | .offered job _ => job.tracked = true
  | .forced job => job.tracked = true ∧ ∃ scope, op = .summarize scope true
  | .closed | .dismissed | .expired _ _ => op = .shutdown
  | .other | .started _ | .abandoned _ | .ended _ _ _ => True

/-- All allow what happens while the caller waits. -/
theorem Operation.allows_of_inner (op : Operation) {e : Entry} (he : e.isInner = true) :
    op.Allows e := by
  cases e with
  | other | started | abandoned | ended => trivial
  | _ => cases he

namespace Ledger

/-- Every entry is allowed by some operation. -/
def IsAllowed (l : Ledger) (ops : List Operation) : Prop := ∀ e ∈ l, ∃ op ∈ ops, op.Allows e

namespace IsAllowed

variable {l : Ledger} {ops : List Operation}

/-- What more operations allow is allowed as well. -/
theorem append {m : Ledger} {more : List Operation} (h : l.IsAllowed ops) (h' : m.IsAllowed more) :
    IsAllowed (l ++ m) (ops ++ more) := by
  intro e he
  rcases List.mem_append.1 he with hl | hm
  · obtain ⟨op, hop, hallowed⟩ := h e hl
    exact ⟨op, List.mem_append_left _ hop, hallowed⟩
  · obtain ⟨op, hop, hallowed⟩ := h' e hm
    exact ⟨op, List.mem_append_right _ hop, hallowed⟩

/-- All jobs of a service are tracked. -/
theorem tracked (h : l.IsAllowed ops) {job : Job} (hjob : job ∈ l.arrived) :
    job.tracked = true := by
  obtain ⟨e, he, harrived⟩ := List.mem_flatMap.1 hjob
  obtain ⟨op, -, hallowed⟩ := h e he
  rcases Entry.cases_of_arrived harrived with ⟨number, rfl⟩ | rfl
  · exact hallowed
  · exact hallowed.1

/-- A session is removed only if the caller has it removed. -/
theorem removed (h : l.IsAllowed ops) {key : SessionKey} (hremoved : .removed key ∈ l) :
    .remove key ∈ ops := by
  obtain ⟨op, hop, hallowed⟩ := h _ hremoved
  exact hallowed ▸ hop

/-- A summary is forced only if the caller forces it. -/
theorem forced (h : l.IsAllowed ops) {job : Job} (hforced : .forced job ∈ l) :
    ∃ scope, .summarize scope true ∈ ops := by
  obtain ⟨op, hop, -, scope, hallowed⟩ := h _ hforced
  exact ⟨scope, hallowed ▸ hop⟩

/-- There is time while the caller does not shut the service down. -/
theorem in_time (h : l.IsAllowed ops) (hopen : .shutdown ∉ ops) : l.isInTime = true := by
  refine List.all_eq_true.2 fun e he => ?_
  obtain ⟨op, hop, hallowed⟩ := h e he
  cases e with
  | expired aborted stranded => exact absurd (hallowed ▸ hop) hopen
  | _ => rfl

end IsAllowed

end Ledger

namespace Service

variable {σ : Type} [SummaryStore σ]

/-- What an operation does to a service is in the ledger. -/
theorem is_served_posts (setup : Setup) (exclusive : Bool) (op : Operation) :
    IsServed setup exclusive op (Pipeline.Posts (σ := σ) setup exclusive op.Allows) where
  toIsScheduled := Pipeline.is_scheduled_posts fun _ => op.allows_of_inner
  warn _ := Pipeline.posts_same (fun _ => op.allows_of_inner) ⟨rfl, rfl, rfl, fun _ => rfl⟩
  call _ := Pipeline.posts_same (fun _ => op.allows_of_inner) ⟨rfl, rfl, rfl, fun _ => rfl⟩
  append _ _ _ := Pipeline.posts_same (fun _ => op.allows_of_inner) ⟨rfl, rfl, rfl, fun _ => rfl⟩
  record _ _ _ _ := Pipeline.posts_same (fun _ => op.allows_of_inner)
    ⟨rfl, rfl, rfl, fun _ => TriggerCounters.in_flight_record _ _ _ _ _⟩
  remove p key hop := .of_step (.remove p key) hop
  offer hadmits hmade :=
    .of_step (.offer (fun _ => hadmits) hmade rfl) (Pipeline.make_job_inv hmade).1.2.2
  force := by
    intro p made scope job hop hmade
    refine Pipeline.posts_begin (fun _ => op.allows_of_inner) fun run hjob hworker => ?_
    subst hjob
    exact .of_step (.force hmade hworker) ⟨(Pipeline.make_job_inv hmade).1.2.2, scope, hop⟩
  dismiss hop hclosing hwait hdrained :=
    .of_parting hclosing hop hwait (fun hclosing' => .dismiss hclosing' hdrained) hop
  abort hop hclosing hwait :=
    .of_parting hclosing hop hwait (fun hclosing' => .expire hclosing') hop

/-- Whatever a caller does, the pipeline of the service goes through steps, and every entry of their
ledger is allowed by something that the caller does. -/
theorem exists_ledger (s : Service σ) (ops : List Operation) (hdistinct : s.pipeline.Distinct) :
    ∃ l, Pipeline.Steps s.setup s.config.summary.config.singleFlight s.pipeline l
        (s.performAll ops).pipeline ∧ l.IsAllowed ops := by
  induction ops generalizing s with
  | nil => exact ⟨[], .start, by simp [Ledger.IsAllowed]⟩
  | cons op ops ih =>
      have hserved :=
        served_perform (is_served_posts s.setup s.config.summary.config.singleFlight op)
      obtain ⟨l, hsteps, hl⟩ := hserved.pipeline hdistinct
      obtain ⟨m, hsteps', hm⟩ := ih (s.perform op) (hsteps.distinct hdistinct)
      rw [hserved.setup, hserved.config] at hsteps'
      have hl' : l.IsAllowed [op] := fun e he => ⟨op, List.mem_singleton_self op, hl e he⟩
      exact ⟨l ++ m, hsteps.trans hsteps', hl'.append hm⟩

/-- In particular this is so for a service that was just built. -/
theorem exists_ledger_of_build {parts : ServiceParts σ} {s : Service σ}
    (hbuild : parts.build = .ok s) (ops : List Operation) :
    ∃ l, Pipeline.Steps s.setup parts.config.summary.config.singleFlight
        (.fresh parts.store (parts.summarizer.map fun _ => parts.config.pool)) l
        (s.performAll ops).pipeline ∧ l.IsAllowed ops := by
  obtain ⟨hpipeline, -, hconfig⟩ := ServiceParts.build_pipeline hbuild
  have hledger := s.exists_ledger ops
  rw [hpipeline, hconfig] at hledger
  exact hledger (Pipeline.distinct_fresh _ _)

end Service

end Transcript
