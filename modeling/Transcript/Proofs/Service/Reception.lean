import Transcript.Proofs.Service.Admission
import Transcript.Proofs.Service.Assembly
import Transcript.Proofs.Session.Branch
import Transcript.Proofs.Session.Changes
import Mathlib.Tactic.Tauto

/-!
# What becomes of an event

An event is counted for the whole session and then for its branch, and each of the two may bring
about a job. So the second scope finds the queue longer if the first has got a job into it, but
nothing else that it is judged by has changed (`Pipeline.SameIntake`). Which jobs are let in is
therefore told by the service as it was before (`Service.admitted`). `Service.event_is_received`
puts together what comes of an append.
-/

namespace Transcript

/-! ## The pool that jobs are offered to -/

namespace Pipeline

variable {σ : Type} {p p' p'' : Pipeline σ}

/-- The number of jobs that the queue has room for, all in all. -/
def capacity (p : Pipeline σ) : Nat := (p.pool.map Pool.capacity).getD 0

/-- As long as as many jobs wait, the pools of the two pipelines take the same view of an offer. -/
structure SameIntake (p p' : Pipeline σ) : Prop where
  pool : p'.pool.isSome = p.pool.isSome
  capacity : p'.capacity = p.capacity
  closing : p'.isClosing = p.isClosing

/-- The view that a pool takes of an offer stays the same over two changes if it does over each. -/
theorem SameIntake.trans (h : SameIntake p p') (h' : SameIntake p' p'') : SameIntake p p'' :=
  ⟨h'.pool.trans h.pool, h'.capacity.trans h.capacity, h'.closing.trans h.closing⟩

/-- The jobs that wait make no difference, nor do the stats. -/
theorem SameIntake.of_map {f : Pool → Pool} (hpool : p'.pool = p.pool.map f)
    (hf : ∀ pool, (f pool).capacity = pool.capacity ∧ (f pool).closing = pool.closing) :
    SameIntake p p' := by
  constructor
  · rw [hpool, Option.isSome_map]
  · unfold Pipeline.capacity
    rw [hpool]
    cases p.pool with
    | none => rfl
    | some pool => exact (hf pool).1
  · unfold isClosing
    rw [hpool]
    cases p.pool with
    | none => rfl
    | some pool => exact (hf pool).2

/-- A pool that lets a job in is there, has room in its queue, and is not closing. -/
theorem lets_in_iff (p : Pipeline σ) :
    (∃ pool, p.pool = some pool ∧ pool.closing = false ∧ pool.hasRoom = true) ↔
      p.pool.isSome = true ∧ p.queue.length < p.capacity ∧ p.isClosing = false := by
  unfold queue Pipeline.capacity isClosing Pool.hasRoom
  cases p.pool with
  | none => simp
  | some pool => simp [and_comm]

end Pipeline

namespace Service

variable {σ : Type} {s t : Service σ} {scope : Scope} {scopes : List Scope} {e : Event}

/-! ## An event in one scope -/

/-- Whether an event gets a job of a scope into the queue, when so many jobs wait: summaries are on,
there is a model, the event makes a summary of the scope due, there is room, the pool is not
closing, and the scope may have several jobs or has none. -/
def letsIn (s : Service σ) (e : Event) (waiting : Nat) (scope : Scope) : Bool :=
  s.config.summary.enabled && s.hasModel &&
    s.checker ((s.state scope).record (s.cost e.message) e.timestamp) &&
    waiting < s.pipeline.capacity && !s.pipeline.isClosing &&
    (!s.config.summary.config.singleFlight || (s.state scope).inFlight == 0)

/-- An event gets a job into the queue if it makes a summary due and its request is let in. -/
theorem lets_in_iff (s : Service σ) (e : Event)
    (hevents : s.pipeline.log.hasEvents scope.session scope.filter = true) :
    s.letsIn e s.pipeline.queue.length scope = true ↔
      s.fires e scope = true ∧ ((s.counted e scope).enqueue scope).1.isEnqueued = true := by
  have hadmits : (s.counted e scope).admits scope = true ↔
      s.config.summary.config.singleFlight = false ∨ (s.state scope).inFlight = 0 := by
    refine (TriggerCounters.admits_iff _ _ _).trans (or_congr_right ?_)
    exact Eq.congr_left (s.pipeline.counters.in_flight_record scope scope _ _)
  rw [is_enqueued_iff, hadmits, Pipeline.lets_in_iff]
  show _ ↔ s.fires e scope = true ∧ s.config.summary.enabled = true ∧
    s.pipeline.log.hasEvents scope.session scope.filter = true ∧ _ ∧ s.hasModel = true ∧
    s.pipeline.queue.length < s.pipeline.capacity ∧ s.pipeline.isClosing = false
  unfold letsIn fires
  simp only [hevents, Bool.and_eq_true, decide_eq_true_eq, Bool.not_eq_true', Bool.or_eq_true,
    beq_iff_eq, true_and]
  tauto

/-- The state of a scope after an event has been counted for it, and so many jobs. -/
def stateAfter (s : Service σ) (e : Event) (scope : Scope) (jobs : Nat) : TriggerState :=
  { (s.state scope).record (s.cost e.message) e.timestamp with
    inFlight := (s.state scope).inFlight + jobs }

/-- An event that is counted changes the state of its own scope only. -/
theorem state_counted (s : Service σ) (e : Event) (scope other : Scope) :
    (s.counted e scope).state other =
      if other = scope then (s.state scope).record (s.cost e.message) e.timestamp
      else s.state other :=
  s.pipeline.counters.snapshot_record scope other _ _

/-- If its request is let in, an event is counted with a job, which waits behind the others. -/
theorem observe_let_in (hevents : s.pipeline.log.hasEvents scope.session scope.filter = true)
    (hlet : s.letsIn e s.pipeline.queue.length scope = true) :
    s.fires e scope = true ∧
      ((s.counted e scope).enqueue scope).1 = .enqueued (s.nextJob scope).number ∧
      (∀ other, (s.observe e scope).state other =
        if other = scope then s.stateAfter e scope 1 else s.state other) ∧
      (s.observe e scope).pipeline.pool = s.pipeline.pool.map (·.push (s.nextJob scope)) := by
  obtain ⟨hfires, henqueued⟩ := (s.lets_in_iff e hevents).1 hlet
  obtain ⟨hanswer, hstate, hpool⟩ := enqueue_let_in henqueued
  rw [observe_eq, if_pos hfires]
  refine ⟨hfires, hanswer, fun other => ?_, hpool⟩
  rw [hstate, state_counted, state_counted, if_pos rfl]
  split <;> rfl

/-- Otherwise it is counted without a job, and the same jobs wait. -/
theorem observe_not_let_in (hevents : s.pipeline.log.hasEvents scope.session scope.filter = true)
    (hnot : s.letsIn e s.pipeline.queue.length scope = false) :
    (s.fires e scope = true → ((s.counted e scope).enqueue scope).1.isEnqueued = false) ∧
      (∀ other, (s.observe e scope).state other =
        if other = scope then s.stateAfter e scope 0 else s.state other) ∧
      ((s.observe e scope).pipeline.pool = s.pipeline.pool.map id ∨
        (s.observe e scope).pipeline.pool = s.pipeline.pool.map Pool.drop) := by
  have hrefused (hfires : s.fires e scope = true) :
      ((s.counted e scope).enqueue scope).1.isEnqueued = false := by
    rw [← Bool.not_eq_true]
    intro henqueued
    rw [(s.lets_in_iff e hevents).2 ⟨hfires, henqueued⟩] at hnot
    cases hnot
  refine ⟨hrefused, ?_⟩
  rw [observe_eq, Option.map_id_fun, id_eq]
  split
  · rename_i hfires
    obtain ⟨hstate, hpool⟩ := enqueue_refused (hrefused hfires)
    refine ⟨fun other => ?_, ?_⟩
    · rw [hstate, state_counted]
      rfl
    · rw [hpool]
      split
      · exact .inr rfl
      · exact .inl rfl
  · exact ⟨s.state_counted e scope, .inl rfl⟩

/-- The next offer is looked at as this one was. -/
theorem same_intake_observe (s : Service σ) (e : Event)
    (hevents : s.pipeline.log.hasEvents scope.session scope.filter = true) :
    Pipeline.SameIntake s.pipeline (s.observe e scope).pipeline := by
  cases hlet : s.letsIn e s.pipeline.queue.length scope with
  | true => exact .of_map (observe_let_in hevents hlet).2.2.2 fun _ => ⟨rfl, rfl⟩
  | false =>
      rcases (observe_not_let_in hevents hlet).2.2 with hsame | hdropped
      · exact .of_map hsame fun _ => ⟨rfl, rfl⟩
      · exact .of_map hdropped fun _ => ⟨rfl, rfl⟩

/-! ## An event in several scopes -/

/-- Those of some scopes for which an event gets a job into the queue, one after the other. -/
def admitted (s : Service σ) (e : Event) : (waiting : Nat) → List Scope → List Scope
  | _, [] => []
  | waiting, scope :: scopes =>
    if s.letsIn e waiting scope then scope :: s.admitted e (waiting + 1) scopes
    else s.admitted e waiting scopes

/-- Only scopes that the event is counted for get a job. -/
theorem admitted_subset (s : Service σ) (e : Event) (waiting : Nat) (scopes : List Scope) :
    s.admitted e waiting scopes ⊆ scopes := by
  induction scopes generalizing waiting with
  | nil => exact List.Subset.refl _
  | cons scope scopes ih =>
      unfold admitted
      split
      · exact List.cons_subset_cons scope (ih (waiting + 1))
      · exact List.subset_cons_of_subset scope (ih waiting)

/-- The first scope, if it gets a job, takes up room that the others would have had. -/
theorem admitted_cons (s : Service σ) (e : Event) (waiting : Nat) (scope : Scope)
    (scopes : List Scope) :
    s.admitted e waiting (scope :: scopes) = s.admitted e waiting [scope] ++
      s.admitted e (waiting + (s.admitted e waiting [scope]).length) scopes := by
  cases hlet : s.letsIn e waiting scope <;> simp [admitted, hlet]

/-- The requests that an event brings about when it is counted for some scopes, one after the other,
with the answers to them. -/
def requests (e : Event) : Service σ → List Scope → List (Scope × EnqueueOutcome)
  | _, [] => []
  | s, scope :: scopes =>
    (if s.fires e scope then [(scope, ((s.counted e scope).enqueue scope).1)] else []) ++
      requests e (s.observe e scope) scopes

/-- What becomes of an event that is counted for some scopes, one after the other, beginning in `t`:
the jobs that are let in wait behind the others, and nothing is known about other scopes that was
not known before. Which jobs these are is told by `s`, in which none of the scopes has been looked
at yet. -/
structure Received (s : Service σ) (e : Event) (scopes : List Scope) (t : Service σ)
    (jobs : List Job) : Prop where
  queue : (scopes.foldl (·.observe e ·) t).pipeline.queue = t.pipeline.queue ++ jobs
  admitted : jobs.map Job.scope = s.admitted e t.pipeline.queue.length scopes
  requested : (requests e t scopes).map Prod.fst = scopes.filter (s.fires e)
  answered : (requests e t scopes).filter (·.2.isEnqueued) =
    jobs.map fun job => (job.scope, .enqueued job.number)
  state : ∀ other, (scopes.foldl (·.observe e ·) t).state other =
    if other ∈ scopes then s.stateAfter e other ((jobs.map Job.scope).count other)
    else t.state other

/-- What becomes of an event in a scope that is judged in `t` as it was in `s`. -/
theorem received_observe (hevents : t.pipeline.log.hasEvents scope.session scope.filter = true)
    (hfires : t.fires e scope = s.fires e scope)
    (hlets : t.letsIn e t.pipeline.queue.length scope = s.letsIn e t.pipeline.queue.length scope)
    (hafter : t.stateAfter e scope = s.stateAfter e scope) :
    ∃ jobs, s.Received e [scope] t jobs := by
  cases hlet : t.letsIn e t.pipeline.queue.length scope with
  | true =>
      obtain ⟨hfired, hanswer, hstate, hpool⟩ := observe_let_in hevents hlet
      obtain ⟨pool, hsome⟩ : ∃ pool, t.pipeline.pool = some pool := by
        have hmodel : t.hasModel = true := by
          unfold letsIn at hlet
          simp only [Bool.and_eq_true] at hlet
          exact hlet.1.1.1.1.2
        exact Option.isSome_iff_exists.1 hmodel
      have hpushed : (t.pipeline.onPool (·.push (t.nextJob scope))).queue =
          t.pipeline.queue ++ [t.nextJob scope] := Pipeline.queue_push _ _ hsome
      refine ⟨[t.nextJob scope], (Pipeline.queue_congr hpool).trans hpushed, ?_, ?_, ?_,
        fun other => ?_⟩
      · rw [Service.admitted, if_pos (hlets ▸ hlet)]
        rfl
      · rw [requests, if_pos hfired, List.filter_singleton, ← hfires, hfired]
        rfl
      · rw [requests, if_pos hfired, hanswer]
        rfl
      · refine (hstate other).trans ?_
        by_cases hother : other = scope
        · subst hother
          simp [hafter, nextJob]
        · simp [hother]
  | false =>
      obtain ⟨hrefused, hstate, hpool⟩ := observe_not_let_in hevents hlet
      have hqueue : (t.observe e scope).pipeline.queue = t.pipeline.queue := by
        rcases hpool with hsame | hdropped
        · exact (Pipeline.queue_congr (p := t.pipeline.onPool id) hsame).trans
            (t.pipeline.queue_on_pool fun _ => rfl)
        · exact (Pipeline.queue_congr (p := t.pipeline.onPool Pool.drop) hdropped).trans
            (t.pipeline.queue_on_pool fun _ => rfl)
      refine ⟨[], hqueue.trans (List.append_nil _).symm, ?_, ?_, ?_, fun other => ?_⟩
      · rw [Service.admitted, ← hlets, hlet]
        rfl
      · rw [requests, List.filter_singleton, ← hfires]
        cases t.fires e scope <;> rfl
      · rw [requests]
        split
        · rename_i hfired
          simp [hrefused hfired, requests]
        · rfl
      · refine (hstate other).trans ?_
        by_cases hother : other = scope
        · subst hother
          simp [hafter]
        · simp [hother]

/-- One scope comes first, and then the others, of which it is none. -/
theorem Received.cons {first later : List Job} (hnew : scope ∉ scopes)
    (h : s.Received e [scope] t first) (h' : s.Received e scopes (t.observe e scope) later) :
    s.Received e (scope :: scopes) t (first ++ later) := by
  have hrequests : requests e t (scope :: scopes) =
      requests e t [scope] ++ requests e (t.observe e scope) scopes := by
    simp [requests]
  have hqueue : (t.observe e scope).pipeline.queue = t.pipeline.queue ++ first := h.queue
  have hfirst := h.admitted
  have hlater := h'.admitted
  refine ⟨?_, ?_, ?_, ?_, fun other => ?_⟩
  · exact h'.queue.trans (by rw [hqueue, List.append_assoc])
  · rw [hqueue, List.length_append, ← first.length_map (f := Job.scope), hfirst] at hlater
    rw [List.map_append, hfirst, hlater, ← admitted_cons]
  · rw [hrequests, List.map_append, h.requested, h'.requested, ← List.filter_append]
    rfl
  · rw [hrequests, List.filter_append, h.answered, h'.answered, List.map_append]
  · have hstate : (t.observe e scope).state other = _ := h.state other
    refine (h'.state other).trans ?_
    rw [hstate, List.map_append, List.count_append]
    by_cases hother : other = scope
    · -- It comes first, so no later job is one of its jobs.
      subst hother
      have hnone : (later.map Job.scope).count other = 0 :=
        List.count_eq_zero.2 fun hmem => hnew (s.admitted_subset e _ scopes (hlater ▸ hmem))
      simp [hnew, hnone]
    · have hnone : (first.map Job.scope).count other = 0 := by
        refine List.count_eq_zero.2 fun hmem => hother ?_
        exact List.mem_singleton.1 (s.admitted_subset e _ [scope] (hfirst ▸ hmem))
      simp [hother, hnone]

/-- An event that is counted for some scopes, one after the other, is received as all of them were
at first. -/
theorem received_observe_all (hnodup : scopes.Nodup) (hsettings : SameSettings s t)
    (hintake : Pipeline.SameIntake s.pipeline t.pipeline)
    (hstate : ∀ scope ∈ scopes, t.state scope = s.state scope)
    (hevents : ∀ scope ∈ scopes, t.pipeline.log.hasEvents scope.session scope.filter = true) :
    ∃ jobs, s.Received e scopes t jobs := by
  induction scopes generalizing t with
  | nil => exact ⟨[], (List.append_nil _).symm, rfl, rfl, rfl, fun _ => rfl⟩
  | cons scope scopes ih =>
      obtain ⟨hnew, hrest⟩ := List.nodup_cons.1 hnodup
      have hscope := hstate scope List.mem_cons_self
      have hhas := hevents scope List.mem_cons_self
      have hobserved := (t.observe_spec e scope).1
      obtain ⟨first, hfirst⟩ : ∃ jobs, s.Received e [scope] t jobs := by
        refine received_observe hhas ?_ ?_ ?_
        · unfold fires
          rw [hsettings.config, hsettings.checker, hsettings.cost, hscope]
        · unfold letsIn hasModel
          rw [hsettings.config, hsettings.checker, hsettings.cost, hscope, hintake.pool,
            hintake.capacity, hintake.closing]
        · unfold stateAfter
          rw [hsettings.cost, hscope]
      have hstate' (other : Scope) (hother : other ∈ scopes) :
          (t.observe e scope).state other = s.state other := by
        have hne : other ≠ scope := fun heq => hnew (heq ▸ hother)
        rw [t.state_observe_of_ne e hne, hstate other (List.mem_cons_of_mem _ hother)]
      have hevents' (other : Scope) (hother : other ∈ scopes) :
          (t.observe e scope).pipeline.log.hasEvents other.session other.filter = true := by
        rw [hobserved.quiet.log]
        exact hevents other (List.mem_cons_of_mem _ hother)
      obtain ⟨later, hlater⟩ := ih hrest (hsettings.trans hobserved.settings)
        (hintake.trans (t.same_intake_observe e hhas)) hstate' hevents'
      exact ⟨first ++ later, hfirst.cons hnew hlater⟩

/-- None of the requests finds its scope without events. -/
theorem requests_ne_nothing
    (hevents : ∀ scope ∈ scopes, t.pipeline.log.hasEvents scope.session scope.filter = true) :
    ∀ request ∈ requests e t scopes, request.2 ≠ .skipped .nothingToSummarize := by
  induction scopes generalizing t with
  | nil => exact nofun
  | cons scope scopes ih =>
      intro request hrequest
      rw [requests] at hrequest
      rcases List.mem_append.1 hrequest with hfirst | hlater
      · split at hfirst
        · rw [List.mem_singleton.1 hfirst]
          exact enqueue_ne_nothing (s := t.counted e scope) (hevents scope List.mem_cons_self)
        · cases hfirst
      · refine ih (fun other hother => ?_) request hlater
        rw [(t.observe_spec e scope).1.quiet.log]
        exact hevents other (List.mem_cons_of_mem _ hother)

/-! ## An event that is appended -/

/-- When an event has got its place in the log, each of its scopes has an event. -/
theorem has_events_logged (s : Service σ) (key : SessionKey) (e : Event) :
    ∀ scope ∈ scopesOf key e.branch,
      (s.logged key e).pipeline.log.hasEvents scope.session scope.filter = true := by
  intro scope hscope
  obtain ⟨rfl, hfilter⟩ := mem_scopes_of.1 hscope
  have hwithin : e.isWithin scope.filter = true := by
    unfold Event.isWithin
    rcases hfilter with hempty | hbranch
    · rw [hempty]
      rfl
    · rw [hbranch]
      exact Branch.is_within_refl e.branch
  rw [SessionLog.has_events_iff]
  show (s.pipeline.log.append scope.session e).inScope scope ≠ []
  rw [SessionLog.in_scope_append, if_pos ⟨rfl, hwithin⟩]
  exact List.append_ne_nil_of_right_ne_nil _ (List.cons_ne_nil _ _)

variable [SummaryStore σ] {parts : ServiceParts σ} {first : Service σ} {history : List Happening}

/-- Whatever has happened to a service before, an event that is appended to a session gets the next
id and its place behind the events of the session, and other sessions, the summaries and the model
are left alone. It is counted for the whole session and for its branch, if it has one, and for no
other scope. For each of the two, in this order, a job is put into the queue exactly if the scope
lets one in: summaries are on, there is a model, the event makes a summary of the scope due, the
queue has room, the pool is not closing, and the scope may have several jobs or has none. No request
is turned down for lack of events. -/
theorem event_is_received (hbuild : parts.build = .ok first) (hcourse : Course first history s)
    (key : SessionKey) (e : Event) :
    let id := (s.append key e).1
    let s' := (s.append key e).2
    let scopes := Scope.whole key :: if e.branch = "" then [] else [⟨key, e.branch⟩]
    let requests := requests e (s.logged key e) scopes
    id = (s.events key).length + 1 ∧ s'.events key = s.events key ++ [{ e with id }] ∧
      (∀ other, other ≠ key → s'.events other = s.events other) ∧
      s'.pipeline.store = s.pipeline.store ∧ s'.pipeline.prompts = s.pipeline.prompts ∧
      (∀ scope, scope ∉ scopes → s'.state scope = s.state scope) ∧
      (∀ request ∈ requests, request.2 ≠ .skipped .nothingToSummarize) ∧
      requests.map Prod.fst = scopes.filter (s.fires e) ∧
      ∃ jobs, s'.pipeline.queue = s.pipeline.queue ++ jobs ∧
        jobs.map Job.scope = s.admitted e s.pipeline.queue.length scopes ∧
        requests.filter (·.2.isEnqueued) = jobs.map (fun job => (job.scope, .enqueued job.number)) ∧
        ∀ scope ∈ scopes,
          s'.state scope = s.stateAfter e scope ((jobs.map Job.scope).count scope) := by
  have hscopes : (Scope.whole key :: if e.branch = "" then [] else [⟨key, e.branch⟩]) =
      scopesOf key e.branch := by
    unfold scopesOf
    simp only [String.isEmpty_iff]
    split <;> rfl
  rw [hscopes]
  intro id s' scopes requests
  have hevents := s.has_events_logged key e
  obtain ⟨jobs, hqueue, hadmitted, hrequested, hanswered, hstate⟩ :=
    received_observe_all (nodup_scopes_of key e.branch) (s := s) (t := s.logged key e)
      ⟨rfl, rfl, rfl, rfl⟩ ⟨rfl, rfl, rfl⟩ (fun _ _ => rfl) hevents
  obtain ⟨-, hquiet, -⟩ := (s.append_spec key e).1
  have hlog (other : SessionKey) : s'.events other =
      if other = key then s.events key ++ [{ e with id }] else s.events other := by
    show (s'.pipeline.log.session other).events = _
    rw [hquiet.log]
    show ((s.pipeline.log.append key e).session other).events = _
    rw [SessionLog.session_append]
    split <;> rfl
  have hlast := (Course.is_numbered hbuild hcourse key).last_eq
  refine ⟨congrArg (· + 1) hlast, ?_, fun other hother => ?_, hquiet.store, hquiet.prompts,
    fun scope hscope => ?_, requests_ne_nothing hevents, hrequested, jobs, hqueue, hadmitted,
    hanswered, fun scope hscope => ?_⟩
  · rw [hlog, if_pos rfl]
  · rw [hlog, if_neg hother]
  · exact (hstate scope).trans (if_neg hscope)
  · exact (hstate scope).trans (if_pos hscope)

end Service

/-- Parts of a service that sums up after each event, and has room for one job in its queue. -/
def ServiceParts.eager : ServiceParts MemoryStore :=
  { ServiceParts.taking 0 with checker := some fun _ => true }

/-- A service that sums up after each event, and has room for one job in its queue. -/
def Service.eager : Service MemoryStore := { taking 0 with checker := fun _ => true }

/-- It is what is built from these parts. -/
theorem Service.build_eager : ServiceParts.eager.build = .ok Service.eager :=
  ServiceParts.build_eq_ok_iff.2
    ⟨by decide +kernel, { template := conversationPlace }, by decide +kernel, rfl, rfl⟩

/-- An event on a branch makes two summaries due. The queue has room for the job of the whole
session, and the job of the branch is dropped, but the event is counted for both. -/
theorem Service.event_is_received_on_branch :
    let e := { Event.saying "x" with branch := "plans" }
    let s' := (eager.append .desk e).2
    let scopes := [Scope.whole .desk, ⟨.desk, "plans"⟩]
    ServiceParts.eager.build = .ok eager ∧ s'.events .desk = [{ e with id := 1 }] ∧
      requests e (eager.logged .desk e) scopes =
        [(.whole .desk, .enqueued 1),
          (⟨.desk, "plans"⟩, .dropped (.queueFull (Scope.mk .desk "plans").text))] ∧
      s'.pipeline.queue.map Job.scope = [.whole .desk] ∧
      scopes.map (fun scope => ((s'.state scope).events, (s'.state scope).inFlight)) =
        [(1, 1), (1, 0)] := by
  intro e s' scopes
  obtain ⟨-, hevents, -, -, -, -, -, -, jobs, hqueue, hadmitted, -, -⟩ :=
    event_is_received build_eager .start .desk e
  have hfirst : jobs.map Job.scope = [.whole .desk] := hadmitted.trans (by decide +kernel)
  refine ⟨build_eager, hevents, ?_, (congrArg (List.map Job.scope) hqueue).trans hfirst, ?_⟩
  · decide +kernel
  · decide +kernel

end Transcript
